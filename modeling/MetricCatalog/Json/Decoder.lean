/-
# Reading data from JSON

Readers for the kinds of values that records are made of. Each walks its tree in
the order of the text and stops at the first thing wrong.
-/

import MetricCatalog.Json.Number
import MetricCatalog.Json.Parser
import MetricCatalog.Decode.Record

namespace MetricCatalog

namespace Json

/-- A reader for values of some type. -/
abbrev Decoder (α : Type) := Json → Except DecodeError α

/-- How complaints about JSON are worded. -/
def wording : Wording := ⟨"invalid JSON", "null", Layout.json⟩

/-- The complaint about a value of the wrong kind. A number too large to be read and a string
that is no text are faults of the text itself. -/
def mismatch (expected : String) : Json → DecodeError
  | null => .invalidType .unit expected
  | bool value => .invalidType (.bool value) expected
  | num numeral =>
      match readNumber numeral with
      | some (.int value) => .invalidType (.integer value) expected
      | some (.float value) => .invalidType (.float value) expected
      | none => .malformed
  | str text => .invalidType (.text text) expected
  | arr _ => .invalidType .sequence expected
  | obj _ => .invalidType .map expected
  | unpaired | broken => .malformed

/-- Reads a text and makes something of it; `none` means that the text does not follow the
format of what it stands for. -/
def readText (expected : String) {α : Type} (read : String → Option α) : Decoder α
  | str text =>
      match read text with
      | some value => .ok value
      | none => .error .malformed
  | value => .error (value.mismatch expected)

/-- Reads a text. -/
def readString : Decoder String := readText "a string" some

/-- Reads a natural number below a limit. -/
def readNat (expected : String) (limit : Nat) : Decoder Nat
  | value@(num numeral) =>
      match readNumber numeral with
      | some (.int n) =>
          if 0 ≤ n && n < limit then .ok n.toNat
          else .error (.invalidValue (.integer n) expected)
      | _ => .error (value.mismatch expected)
  | value => .error (value.mismatch expected)

/-- Reads a number. -/
def readDouble : Decoder Double
  | value@(num numeral) =>
      match readNumber numeral with
      | some (.int n) => .ok (Double.ofInt n)
      | some (.float x) => .ok x
      | none => .error (value.mismatch "f64")
  | value => .error (value.mismatch "f64")

/-- Reads a value that may be missing. -/
def readOption {α : Type} (read : Decoder α) : Decoder (Option α)
  | null => .ok none
  | value => (read value).map some

/-- Reads a list. -/
def readList {α : Type} (read : Decoder α) : Decoder (List α)
  | arr items => items.mapM read
  | value => .error (value.mismatch "a sequence")

/-- Reads an object with arbitrary keys, from the first field to the last. -/
def readMap {α β : Type} (empty : β) (insert : α → β → β)
    (readField : String → Json → Except DecodeError α) : Decoder β
  | obj fields =>
      fields.foldlM (fun entries field =>
        match field.1 with
        | str key => (readField key field.2).map fun entry => insert entry entries
        | _ => .error .malformed) empty
  | value => .error (value.mismatch "a map")

/-- Fills the fields of a record in the order of the text. A field that the record does not have
is passed over, as long as it is JSON. -/
def fillFields {α : Type} (reader : RecordReader Json α) :
    List (Json × Json) → reader.Slots → Except DecodeError reader.Slots
  | [], slots => .ok slots
  | (str key, value) :: rest, slots =>
      match reader.fill? key value slots with
      | some filled => filled.bind (fillFields reader rest)
      | none => if value.isComplete then fillFields reader rest slots else .error .malformed
  | _ :: _, _ => .error .malformed

/-- A count with a noun. -/
def counted (noun : String) : Nat → String
  | 1 => s!"1 {noun}"
  | n => s!"{n} {noun}s"

/-- Reads a record from an object or from an array of its fields. -/
def readRecord {α : Type} (expected : String) (reader : RecordReader Json α) : Decoder α
  | obj fields => do
      let slots ← fillFields reader fields reader.empty
      reader.finish slots
  | arr items => do
      let size := counted "element" reader.names.length
      let short (length : Nat) : DecodeError :=
        .invalidLength length s!"{expected} with {size}"
      let (value, rest) ← reader.ofItems short 0 items
      if rest.isEmpty then .ok value else .error .malformed
  | value => .error (value.mismatch expected)

/-- Reads a choice, from its name or from an object whose only key is its name. The reader of a
choice gets the value under that key. -/
def readVariant {α : Type} (known : List String)
    (choice? : String → Option (Option Json → Except DecodeError α)) : Decoder α
  | str name =>
      match choice? name with
      | some read => read none
      | none => .error (.unknownVariant name known)
  | obj ((str name, value) :: rest) =>
      match choice? name with
      | some read => do
          let result ← read (some value)
          if rest.isEmpty then .ok result else .error .malformed
      | none => .error (.unknownVariant name known)
  | obj ((key, _) :: _) => .error (key.mismatch "variant identifier")
  | _ => .error .malformed

/-- A choice without data. -/
def bareChoice {α : Type} (result : α) : Option Json → Except DecodeError α
  | none | some null => .ok result
  | some value => .error (value.mismatch "unit")

/-- A choice with data. -/
def choiceOf {α : Type} (kind : String) (read : Decoder α) : Option Json → Except DecodeError α
  | none => .error (.invalidType .bareChoice kind)
  | some value => read value

/-- A choice by name, for data that has been read in full before. -/
def readName {α : Type} (known : List String) (choice? : String → Option α) : Decoder α
  | str name =>
      match choice? name with
      | some result => .ok result
      | none => .error (.unknownVariant name known)
  | obj [(str name, value)] =>
      match choice? name with
      | some result =>
          match value with
          | null => .ok result
          | value => .error (value.mismatch "unit")
      | none => .error (.unknownVariant name known)
  | obj _ => .error (.invalidValue .map "map with a single key")
  | value => .error (value.mismatch "string or map")

mutual

/-- Whether the value can be read in full: it is JSON, its numbers are in range, its strings are
texts. -/
def isReadable : Json → Bool
  | null | bool _ | str _ => true
  | num numeral => (readNumber numeral).isSome
  | unpaired | broken => false
  | arr items => readableItems items
  | obj fields => readableFields fields
termination_by structural value => value

/-- Whether every item can be read in full. -/
def readableItems : List Json → Bool
  | [] => true
  | item :: rest => item.isReadable && readableItems rest
termination_by structural items => items

/-- Whether every field can be read in full. -/
def readableFields : List (Json × Json) → Bool
  | [] => true
  | (key, value) :: rest =>
      (match key with
        | str _ => true
        | _ => false) && value.isReadable && readableFields rest
termination_by structural fields => fields

end

/-- How deep a value may be when it is read in full before it is made sense of. -/
def depthLimit : Nat := 127

/-- Whether a value at some depth can be set aside, to be made sense of later. -/
def canBuffer (level : Nat) (value : Json) : Bool :=
  value.isReadable && level + value.depth ≤ depthLimit

/-- Reads a whole text. -/
def decodeText {α : Type} (read : Decoder α) (text : String) : Except DecodeError α := do
  let (value, whole) := parse text
  let result ← read value
  if whole then .ok result else .error .malformed

end Json

end MetricCatalog
