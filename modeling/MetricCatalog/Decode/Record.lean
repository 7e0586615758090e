/-
# Reading records

A record is read from named values in the order in which they stand in a text,
so that the first thing wrong there is the one that is reported; what is missing
is reported at the end, in the order of declaration. A reader for a record is
put together from readers for its fields. It also reads the fields from a plain
list of values in the order of declaration.
-/

import MetricCatalog.Decode.Error

namespace MetricCatalog

/-- A reader for a record of type `α` whose values are of type `ν`. -/
structure RecordReader (ν α : Type) where
  /-- What has been read so far. -/
  Slots : Type
  /-- Nothing has been read. -/
  empty : Slots
  /-- The names of the fields, in the order of declaration. -/
  names : List String
  /-- Reads the value of a field, or answers `none` if the record has no such field. -/
  fill? : String → ν → Slots → Option (Except DecodeError Slots)
  /-- The record, when there are no more values. -/
  finish : Slots → Except DecodeError α
  /-- Reads the record from the front of a list; a list that is too short is reported by the
  number of values read before. -/
  ofItems : (Nat → DecodeError) → Nat → List ν → Except DecodeError (α × List ν)

namespace RecordReader

variable {ν α β : Type}

/-- A record of one field, which is either needed or has a value to stand in for it. -/
def field (name : String) (read : ν → Except DecodeError α) (absent : Option α) :
    RecordReader ν α where
  Slots := Option α
  empty := none
  names := [name]
  fill? key value slot :=
    if key = name then
      match slot with
      | some _ => some (.error (.duplicateField name))
      | none => some ((read value).map some)
    else none
  finish slot :=
    match slot, absent with
    | some value, _ => .ok value
    | none, some value => .ok value
    | none, none => .error (.missingField name)
  ofItems short index items :=
    match items with
    | [] => .error (short index)
    | item :: rest => (read item).map fun value => (value, rest)

/-- A field that has to be there. -/
def required (name : String) (read : ν → Except DecodeError α) : RecordReader ν α :=
  field name read none

/-- A field that may be left out. -/
def optional (name : String) (read : ν → Except DecodeError (Option α)) :
    RecordReader ν (Option α) :=
  field name read (some none)

/-- The fields of one record and then those of another. -/
def both (first : RecordReader ν α) (second : RecordReader ν β) : RecordReader ν (α × β) where
  Slots := first.Slots × second.Slots
  empty := (first.empty, second.empty)
  names := first.names ++ second.names
  fill? key value slots :=
    match first.fill? key value slots.1 with
    | some filled => some (filled.map fun slot => (slot, slots.2))
    | none =>
        (second.fill? key value slots.2).map fun filled =>
          filled.map fun slot => (slots.1, slot)
  finish slots := do
    let left ← first.finish slots.1
    let right ← second.finish slots.2
    return (left, right)
  ofItems short index items := do
    let (left, items) ← first.ofItems short index items
    let (right, items) ← second.ofItems short (index + first.names.length) items
    return ((left, right), items)

/-- The record made from the fields. -/
def map (build : α → β) (reader : RecordReader ν α) : RecordReader ν β where
  Slots := reader.Slots
  empty := reader.empty
  names := reader.names
  fill? := reader.fill?
  finish slots := (reader.finish slots).map build
  ofItems short index items :=
    (reader.ofItems short index items).map fun result => (build result.1, result.2)

end RecordReader

end MetricCatalog
