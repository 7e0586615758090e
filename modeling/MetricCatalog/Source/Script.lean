/-
# Scripts

Scripted databases are declared in JSON: tables with their columns, answers to
statements, and databases that refuse connections. Of two declarations of the
same thing the later one counts.
-/

import MetricCatalog.Source.Scripted

namespace MetricCatalog

namespace Scripted

/-- What was done, in one line. -/
def Event.describe : Event → String
  | probeStarted database table => s!"started {database} {table}"
  | probeFinished database table => s!"finished {database} {table}"
  | executed database sql => s!"executed {database} {sql}"

end Scripted

namespace Codec

open Json RecordReader

/-- A list that may be left out. -/
def listField {α : Type} (name : String) (read : Decoder α) : RecordReader Json (List α) :=
  map (·.getD []) (optional name (readOption (readList read)))

/-- Reads a column of a table: its name and its native type. -/
def readNativeColumn : Decoder NativeColumn :=
  readRecord "a column" <|
    map (fun (name, type) => ⟨name, type⟩)
      (both (required "name" readString) (required "type" readString))

/-- Reads a column of a result: its name and perhaps its native type. -/
def readCursorColumn : Decoder CursorColumn :=
  readRecord "a column" <|
    map (fun (name, type) => ⟨name, type⟩)
      (both (required "name" readString) (optional "type" (readOption readString)))

/-- Reads the declaration of a table, as a change of what has been declared before it. -/
def readScriptedTable : Decoder (Scripted.State → Scripted.State) :=
  readRecord "a table" <|
    map (fun (database, schema, name, columns, delay, failure) state =>
        state.withTable database schema name ⟨columns, delay.getD 0, failure⟩)
      (both (required "database" readString)
      (both (optional "schema" (readOption readString))
      (both (required "name" readString)
      (both (listField "columns" readNativeColumn)
      (both (optional "delay_ms" (readOption (readNat "milliseconds" UInt64.size)))
        (optional "error" (readOption readString)))))))

/-- Reads the declaration of an answer, as a change of what has been declared before it. -/
def readScriptedAnswer : Decoder (Scripted.State → Scripted.State) :=
  readRecord "a statement" <|
    map (fun (database, sql, description, rows, failure) state =>
        state.withAnswer database sql <|
          match failure with
          | some complaint => .failure complaint
          | none => .rows description rows)
      (both (required "database" readString)
      (both (required "sql" readString)
      (both (listField "description" readCursorColumn)
      (both (listField "rows" (readList (readValue 0)))
        (optional "error" (readOption readString))))))

/-- Reads a script. -/
def readScript : Decoder Scripted.State :=
  readRecord "a script" <|
    map (fun (tables, answers, unreachable) =>
        let declared := (tables ++ answers).foldl (fun state declare => declare state) default
        unreachable.foldl (·.withUnreachable ·) declared)
      (both (listField "tables" readScriptedTable)
      (both (listField "statements" readScriptedAnswer)
        (listField "unreachable" readString)))

end Codec

end MetricCatalog
