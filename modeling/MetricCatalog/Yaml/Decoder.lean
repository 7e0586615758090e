/-
# Reading data from YAML

Readers for the kinds of values that definitions are made of. A complaint about
something inside a document begins with the place where it is: the keys that
lead there, joined by points.
-/

import MetricCatalog.Decode.Record
import MetricCatalog.Yaml.Resolution

namespace MetricCatalog

namespace Yaml

/-- A node at its place in a document. -/
structure Spot where
  /-- The root of the document. -/
  root : Node
  /-- The keys that lead to the place. -/
  place : List String
  /-- The node there. Only of an empty text there is none. -/
  node : Option Node

/-- A reader for values of some type. -/
abbrev Decoder (α : Type) := Spot → Except DecodeError α

/-- How complaints about YAML are worded. -/
def wording : Wording := ⟨"invalid YAML", "unit value", Layout.full⟩

/-- The value that a scalar stands for, as it is named in complaints. -/
def ScalarValue.unexpected : ScalarValue → Unexpected
  | null => .unit
  | bool value => .bool value
  | int value =>
      if Int64.minValue.toInt ≤ value && value < UInt64.size then .integer value
      else .wideInteger value
  | float value => .float value
  | text value => .text value

namespace Spot

/-- The place behind a key of the mapping at this place. A key that is no scalar has no name. -/
def below (spot : Spot) (key value : Node) : Spot :=
  let name :=
    match key with
    | .scalar text _ _ => text
    | _ => "?"
  { spot with place := spot.place ++ [name], node := some value }

/-- The node with its alias, if it is one, followed. -/
def target (spot : Spot) : Option Node :=
  match spot.node with
  | some (.reference label) => some ((spot.root.labelled? label).getD .broken)
  | node => node

/-- A complaint about this place, unless it is about a place inside already. -/
def locate (spot : Spot) (fault : DecodeError) : DecodeError :=
  match fault with
  | .malformed | .inside _ _ => fault
  | _ => if spot.place.isEmpty then fault else .inside (".".intercalate spot.place) fault

/-- The complaint about a node of the wrong kind. -/
def mismatch (expected : String) : Option Node → DecodeError
  | some (.scalar text style properties) =>
      match resolve text style properties.tag with
      | .ok value => .invalidType value.unexpected expected
      | .error kind => .invalidValue (.text text) kind
  | some (.sequence _ _) => .invalidType .sequence expected
  | some (.mapping _ _) => .invalidType .map expected
  | some (.reference _) | some .broken | none => .malformed

end Spot

/-- Reads a text, whatever else it may stand for. -/
def readText (expected : String) : Decoder String := fun spot =>
  match spot.target with
  | some (.scalar text _ _) => .ok text
  | node => .error (spot.locate (Spot.mismatch expected node))

/-- Reads a text that is a value. -/
def readString : Decoder String := readText "a string"

/-- Whether the node stands for no value. -/
def isMissing : Option Node → Except DecodeError Bool
  | some (.scalar text .plain properties) =>
      match properties.tag with
      | none => .ok (text.isEmpty || isNull text)
      | some tag =>
          if tag = commonTag "null" then
            if isNull text then .ok true else .error (.invalidValue (.text text) "null")
          else .ok false
  | some .broken => .error .malformed
  | some _ => .ok false
  | none => .ok true

/-- Reads a value that may be missing. -/
def readOption {α : Type} (read : Decoder α) : Decoder (Option α) := fun spot =>
  match isMissing spot.target with
  | .error fault => .error fault
  | .ok true => .ok none
  | .ok false => (read spot).map some

/-- The entries of a mapping; a plain empty scalar and an empty text stand for the empty one. -/
def entriesOf (expected : String) (spot : Spot) : Except DecodeError (List (Node × Node)) :=
  match spot.target with
  | some (.mapping entries _) => .ok entries
  | some (.scalar "" .plain _) => .ok []
  | none => .ok []
  | node => .error (spot.locate (Spot.mismatch expected node))

/-- Reads a mapping, from the first entry to the last. -/
def readMap {α β : Type} (empty : β) (insert : String → α → β → β) (read : Decoder α) :
    Decoder β := fun spot => do
  let entries ← entriesOf "a map" spot
  entries.foldlM (fun result entry => do
    let key ← readString { spot with node := some entry.1 }
    let value ← (read (spot.below entry.1 entry.2)).mapError spot.locate
    return insert key value result) empty

/-- Fills the fields of a record in the order of the text. -/
def fillFields {α : Type} (reader : RecordReader Spot α) (spot : Spot) :
    List (Node × Node) → reader.Slots → Except DecodeError reader.Slots
  | [], slots => .ok slots
  | (key, value) :: rest, slots => do
      let name ← readText "field identifier" { spot with node := some key }
      match reader.fill? name (spot.below key value) slots with
      | some filled => fillFields reader spot rest (← filled)
      | none => .error (.unknownField name reader.names)

/-- Reads a record from a mapping. -/
def readRecord {α : Type} (expected : String) (reader : RecordReader Spot α) : Decoder α :=
  fun spot => do
    let entries ← entriesOf expected spot
    ((fillFields reader spot entries reader.empty).bind reader.finish).mapError spot.locate

/-- Reads a text that holds a single document. -/
def decodeText {α : Type} (read : Decoder α) (text : String) : Except DecodeError α := do
  let document := parse text
  let result ← read ⟨document.root.getD .broken, [], document.root⟩
  if document.isOnly then .ok result else .error .malformed

end Yaml

end MetricCatalog
