/-
# Persisted results read back

The form of a value in a row does not say which kind of value it is. Still only
one kind fits it: whatever comes earlier in the order of the kinds rejects it. So
the output of a query is read back value by value, and the fields of a processed
query are told from its results by their names.
-/

import MetricCatalog.Proofs.Catalog.Codec
import MetricCatalog.Query.Results

namespace MetricCatalog

open Codec Json

/-! ## What can be persisted -/

/-- A float is a number whose text stands for it. -/
def Value.IsPersistable : Value → Prop
  | float x => x.ReadsBack
  | _ => True

/-- Every value of the rows can be persisted, and the number of rows has 64 bits. -/
structure StatementResults.IsPersistable (results : StatementResults) : Prop where
  rows : ∀ row ∈ results.rows, ∀ value ∈ row, value.IsPersistable
  rowCount_lt : results.rowCount < UInt64.size

/-- The query and the output of each of its statements can be persisted. -/
structure QueryWithResults.IsPersistable (processed : QueryWithResults) : Prop where
  query : processed.query.IsPersistable
  results : ∀ results ∈ processed.results, results.IsPersistable

namespace Codec

/-! ## Values -/

theorem isPrintable_ofValue (value : Value) : (ofValue value).IsPrintable := by
  cases value with
  | null => exact .null
  | bool value => exact .bool value
  | int value => exact .num (Numeral.isPlain_ofInt _)
  | float value => exact isPrintable_ofDouble value
  | text value => exact .str value
  | bytes value => exact isPrintable_map (fun byte => isPrintable_nat _) value

theorem ofDouble_of_readsBack {x : Double} (hx : x.ReadsBack) :
    ofDouble x = .num (Layout.json.numeral x) := if_pos hx.isFinite

/-- The numeral of a number that reads back is read as that number, and not as an integer. -/
theorem readNumber_of_readsBack {x : Double} (hx : x.ReadsBack) :
    readNumber (Layout.json.numeral x) = some (.float x) := by
  have hfloat := readNumber_ne_int (Layout.fraction_or_scale_numeral .json x)
  have hread : readDouble (.num (Layout.json.numeral x)) = .ok x := by
    rw [← ofDouble_of_readsBack hx]
    exact hx
  rw [readDouble] at hread
  split at hread
  · rename_i n hint
    exact absurd hint (hfloat n)
  · rename_i y hy
    cases hread
    exact hy
  · cases hread

theorem readNumber_toInt (n : Int64) : readNumber (.ofInt n.toInt) = some (.int n.toInt) :=
  readNumber_ofInt n.le_toInt (by have hlt := n.toInt_lt; omega)

theorem byte?_nat (byte : UInt8) : byte? (Json.nat byte.toNat) = some byte := by
  have hlt := byte.toNat_lt
  have hnumber : readNumber (.ofNat byte.toNat) = some (.int byte.toNat) :=
    readNumber_ofNat (Nat.lt_trans hlt (by decide))
  have hrange : (0 : Int) ≤ byte.toNat ∧ (byte.toNat : Int) < 256 := by omega
  simp only [byte?, Json.nat, hnumber]
  rw [if_pos (by simpa using hrange), Int.toNat_natCast, UInt8.ofNat_toNat]

theorem mapM_byte? (bytes : List UInt8) :
    (bytes.map fun byte => Json.nat byte.toNat).mapM byte? = some bytes := by
  induction bytes with
  | nil => rfl
  | cons byte rest ih => simp [byte?_nat, ih]

/-- Of the kinds of values, in their order, the first that fits is the right one. -/
theorem value?_ofValue {value : Value} (hvalue : value.IsPersistable) :
    value? (ofValue value) = some value := by
  cases value with
  | null | bool | text => rfl
  | int n =>
      have hmax : n.toInt ≤ Int64.maxValue.toInt := by
        have hlt := n.toInt_lt
        change n.toInt ≤ 9223372036854775807
        omega
      simp [ofValue, value?, readNumber_toInt, hmax]
  | float x =>
      rw [ofValue, ofDouble_of_readsBack hvalue, value?, readNumber_of_readsBack hvalue]
  | bytes bytes => rw [ofValue, value?, mapM_byte?, Option.map_some]

/-! ## Setting values aside -/

theorem isReadable_num {n : Numeral} {number : Json.Number} (hnumber : readNumber n = some number) :
    (Json.num n).isReadable = true := by
  simp [isReadable, hnumber]

theorem readableItems_bytes (bytes : List UInt8) :
    readableItems (bytes.map fun byte => Json.nat byte.toNat) = true := by
  induction bytes with
  | nil => rfl
  | cons byte rest ih =>
      have hnumber : readNumber (.ofNat byte.toNat) = some (.int byte.toNat) :=
        readNumber_ofNat (Nat.lt_trans byte.toNat_lt (by decide))
      rw [List.map_cons, readableItems, Json.nat, isReadable_num hnumber, ih]
      rfl

theorem itemsDepth_bytes (bytes : List UInt8) :
    itemsDepth (bytes.map fun byte => Json.nat byte.toNat) = 0 := by
  induction bytes with
  | nil => rfl
  | cons byte rest ih =>
      rw [List.map_cons, itemsDepth, ih]
      rfl

theorem isReadable_ofValue {value : Value} (hvalue : value.IsPersistable) :
    (ofValue value).isReadable = true := by
  cases value with
  | null | bool | text => rfl
  | int n => exact isReadable_num (readNumber_toInt n)
  | float x =>
      rw [ofValue, ofDouble_of_readsBack hvalue]
      exact isReadable_num (readNumber_of_readsBack hvalue)
  | bytes bytes => exact readableItems_bytes bytes

theorem depth_ofValue_le {value : Value} (hvalue : value.IsPersistable) :
    (ofValue value).depth ≤ 1 := by
  cases value with
  | null | bool | text | int => exact Nat.zero_le _
  | float x =>
      rw [ofValue, ofDouble_of_readsBack hvalue]
      exact Nat.zero_le _
  | bytes bytes => exact Nat.le_of_eq (congrArg (· + 1) (itemsDepth_bytes bytes))

theorem readValue_ofValue {value : Value} (hvalue : value.IsPersistable) {level : Nat}
    (hlevel : level < depthLimit) : readValue level (ofValue value) = .ok value := by
  have hdepth := depth_ofValue_le hvalue
  have hbuffer : (ofValue value).canBuffer level = true := by
    rw [canBuffer, isReadable_ofValue hvalue, Bool.true_and, decide_eq_true_eq]
    omega
  rw [readValue, hbuffer, value?_ofValue hvalue]
  rfl

/-! ## Results -/

theorem isPrintable_ofStatementResults (results : StatementResults) :
    (ofStatementResults results).IsPrintable :=
  .record (by simp [isPrintable_map, isPrintable_ofValue])

theorem isPrintable_ofQueryResults (results : QueryResults) :
    (ofQueryResults results).IsPrintable :=
  isPrintable_map isPrintable_ofStatementResults results

theorem readRows {rows : List Row} (hrows : ∀ row ∈ rows, ∀ value ∈ row, value.IsPersistable)
    {level : Nat} (hlevel : level < depthLimit) :
    readList (readList (readValue level)) (.arr (rows.map fun row => .arr (row.map ofValue))) =
      .ok rows :=
  readList_map fun row hrow => readList_map fun value hvalue =>
    readValue_ofValue (hrows row hrow value hvalue) hlevel

theorem readStatementResults {results : StatementResults} (hresults : results.IsPersistable)
    {level : Nat} (hlevel : level + 3 < depthLimit) :
    readRecord "struct StatementResults" (statementResultsReader level)
      (ofStatementResults results) = .ok results :=
  ((RecordReader.Reads.both (readString_str results.sql) (by simp)
    (.both (readList_map fun column _ => (reads_ofColumn column).readRecord _) (by simp)
    (.both (readRows hresults.rows hlevel) (by simp)
      (.field (readNat_nat hresults.rowCount_lt (Nat.le_refl _) _))))).map _).readRecord _

theorem readQueryResults_ofQueryResults {results : QueryResults}
    (hresults : ∀ statement ∈ results, statement.IsPersistable) {level : Nat}
    (hlevel : level + 4 < depthLimit) :
    readQueryResults level (ofQueryResults results) = .ok results :=
  readList_map fun statement hstatement =>
    readStatementResults (hresults statement hstatement) hlevel

/-! ## Results beside their query -/

/-- A field that is neither results nor errors and can be set aside. -/
def IsAside (field : String × Json) : Prop :=
  (field.1 ≠ "results" ∧ field.1 ≠ "errors") ∧ field.2.canBuffer 1 = true

/-- A list of fields as an object has them. -/
def keyed (fields : List (String × Json)) : List (Json × Json) :=
  fields.map fun field => (.str field.1, field.2)

theorem fillOutcome_of_fills {fields : List (String × Json)} {slots last : outcomeReader.Slots}
    (hfills : RecordReader.Fills outcomeReader fields slots last) :
    fillOutcome (keyed fields) slots = .ok (last, []) := by
  induction hfills with
  | nil slots => rfl
  | cons hfield _ ih =>
      simp only [keyed, List.map_cons, fillOutcome, hfield, Except.bind]
      exact ih

theorem fill?_of_isAside {field : String × Json} (hfield : IsAside field)
    (slots : outcomeReader.Slots) : outcomeReader.fill? field.1 field.2 slots = none := by
  obtain ⟨⟨hresults, herrors⟩, _⟩ := hfield
  simp [outcomeReader, RecordReader.both, RecordReader.required, RecordReader.field, hresults,
    herrors]

/-- The fields in front of the results are set aside in their order. -/
theorem fillOutcome_append {others fields : List (String × Json)}
    (hothers : ∀ field ∈ others, IsAside field) {slots last : outcomeReader.Slots}
    (hfills : RecordReader.Fills outcomeReader fields slots last) :
    fillOutcome (keyed (others ++ fields)) slots = .ok (last, keyed others) := by
  induction others with
  | nil => exact fillOutcome_of_fills hfills
  | cons field rest ih =>
      obtain ⟨hfield, hrest⟩ := List.forall_mem_cons.mp hothers
      have hbehind := ih hrest
      simp only [keyed] at hbehind
      simp only [keyed, List.cons_append, List.map_cons, fillOutcome, fill?_of_isAside hfield,
        hfield.2, if_true, hbehind]
      rfl

theorem canBuffer_ofText? (text : Option String) : (ofText? text).canBuffer 1 = true := by
  cases text <;> rfl

theorem canBuffer_ofInstant? (instant : Option Instant) :
    (ofInstant? instant).canBuffer 1 = true := by
  cases instant <;> rfl

theorem canBuffer_ofDouble {x : Double} (hx : x.ReadsBack) : (ofDouble x).canBuffer 1 = true := by
  rw [canBuffer, ofDouble_of_readsBack hx, isReadable_num (readNumber_of_readsBack hx)]
  rfl

/-- Nothing of a query is taken for its results. -/
theorem isAside_queryFields {query : Query} (hquery : query.IsPersistable) :
    ∀ field ∈ queryFields query, IsAside field := by
  have hstr (text : String) : (Json.str text).canBuffer 1 = true := rfl
  simp [queryFields, IsAside, ofUuid, hstr, canBuffer_ofText?, canBuffer_ofInstant?,
    canBuffer_ofDouble hquery.progress]

theorem reads_outcome {processed : QueryWithResults} (hprocessed : processed.IsPersistable) :
    outcomeReader.Reads [("results", ofQueryResults processed.results),
      ("errors", .arr (processed.errors.map .str))] (processed.results, processed.errors) :=
  .both (readQueryResults_ofQueryResults hprocessed.results (by decide)) (by simp)
    (.field (readList_map fun error _ => readString_str error))

theorem readQueryWithResults_ofQueryWithResults {processed : QueryWithResults}
    (hprocessed : processed.IsPersistable) :
    readQueryWithResults (ofQueryWithResults processed) = .ok processed := by
  have hstate : readName queryStateNames queryState? (.str processed.query.state.name) =
      .ok processed.query.state := by
    simp [readName, queryState?_name]
  obtain ⟨slots, hfills, hfinish⟩ := reads_outcome hprocessed
  obtain ⟨last, hquery, hdone⟩ := reads_queryFields hprocessed.query hstate
  have houtcome := fillOutcome_append (isAside_queryFields hprocessed.query) hfills
  simp only [keyed] at houtcome
  simp only [readQueryWithResults, ofQueryWithResults, Json.record, houtcome, hfinish,
    hquery.fillFields, hdone, bind, Except.bind]
  rfl

theorem isPrintable_ofQueryWithResults (processed : QueryWithResults) :
    (ofQueryWithResults processed).IsPrintable := by
  refine .record fun field hfield => ?_
  rcases List.mem_append.mp hfield with hquery | houtcome
  · exact isPrintable_queryFields processed.query field hquery
  · rcases List.mem_cons.mp houtcome with rfl | herrors
    · exact isPrintable_ofQueryResults processed.results
    · rw [List.mem_singleton.mp herrors]
      exact isPrintable_map isPrintable_str processed.errors

end Codec

/-- The output of a query is read back from its text as it was, and so is a processed query: every
value as the kind that it was, in rows and statements in their order, and the fields of the query
apart from its results and errors. -/
theorem results_read_back {results : QueryResults} {processed : QueryWithResults}
    (hresults : ∀ statement ∈ results, statement.IsPersistable)
    (hprocessed : processed.IsPersistable) :
    decodeText (readQueryResults 0) (ofQueryResults results).compact = .ok results ∧
      decodeText (readQueryResults 0) (ofQueryResults results).pretty = .ok results ∧
      decodeText readQueryWithResults (ofQueryWithResults processed).compact = .ok processed ∧
      decodeText readQueryWithResults (ofQueryWithResults processed).pretty = .ok processed := by
  have hlist := isPrintable_ofQueryResults results
  have hrecord := isPrintable_ofQueryWithResults processed
  refine ⟨?_, ?_, ?_, ?_⟩
  · rw [decodeText_compact hlist, readQueryResults_ofQueryResults hresults (by decide)]
  · rw [decodeText_pretty hlist, readQueryResults_ofQueryResults hresults (by decide)]
  · rw [decodeText_compact hrecord, readQueryWithResults_ofQueryWithResults hprocessed]
  · rw [decodeText_pretty hrecord, readQueryWithResults_ofQueryWithResults hprocessed]

/-! ## A row of every kind -/

/-- A row with a value of every kind, a text that looks like a number and an empty string of bytes
among them. -/
def everyKind : Row :=
  [.null, .bool false, .int (-1), .int 9223372036854775807, .float ⟨0xBFF0000000000000⟩,
    .text "1.5", .text "", .bytes [], .bytes [0, 255]]

/-- The output of one statement with two rows. -/
def mixedResults : StatementResults where
  sql := "SELECT *\nFROM t"
  columns := [⟨"a", .str⟩]
  rows := [everyKind, []]
  rowCount := 2

theorem results_read_back_mixed :
    mixedResults.IsPersistable ∧
      (QueryWithResults.mk halfQuery [mixedResults] ["no \"such\" table"]).IsPersistable ∧
      decodeText (readQueryResults 0) (ofQueryResults [mixedResults, mixedResults]).compact =
        .ok [mixedResults, mixedResults] ∧
      decodeText readQueryWithResults
        (ofQueryWithResults ⟨halfQuery, [mixedResults], ["no \"such\" table"]⟩).compact =
          .ok ⟨halfQuery, [mixedResults], ["no \"such\" table"]⟩ := by
  have hminusOne : (Value.float ⟨0xBFF0000000000000⟩).IsPersistable := by
    unfold Value.IsPersistable Double.ReadsBack
    decide +kernel
  have hresults : mixedResults.IsPersistable :=
    { rows := by simpa [mixedResults, everyKind, Value.IsPersistable] using hminusOne
      rowCount_lt := by decide }
  have hprocessed :
      (QueryWithResults.mk halfQuery [mixedResults] ["no \"such\" table"]).IsPersistable :=
    { query := isPersistable_halfQuery
      results := List.forall_mem_singleton.mpr hresults }
  have hboth : ∀ statement ∈ [mixedResults, mixedResults], statement.IsPersistable :=
    List.forall_mem_cons.mpr ⟨hresults, List.forall_mem_singleton.mpr hresults⟩
  have hback := results_read_back hboth hprocessed
  exact ⟨hresults, hprocessed, hback.1, hback.2.2.1⟩

end MetricCatalog
