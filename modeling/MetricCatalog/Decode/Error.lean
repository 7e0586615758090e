/-
# What can be wrong with data

The reasons why a value in a text is not the record that was asked for. The text
of a complaint differs a little between formats; a `Wording` holds the
differences.
-/

import MetricCatalog.Number.Layout
import MetricCatalog.Text.Escaped

namespace MetricCatalog

/-- A value that stands where another kind of value was expected. -/
inductive Unexpected
  /-- The missing value. -/
  | unit
  | bool (value : Bool)
  /-- An integer of 64 bits. -/
  | integer (value : Int)
  /-- An integer of more than 64 bits. -/
  | wideInteger (value : Int)
  /-- Any other number. -/
  | float (value : Double)
  | text (value : String)
  /-- A list of values. -/
  | sequence
  /-- A list of named values. -/
  | map
  /-- A choice without data. -/
  | bareChoice
  deriving DecidableEq, Repr

/-- A reason why data cannot be read. -/
inductive DecodeError
  /-- The text does not follow the format, or a text inside it does not follow its own. -/
  | malformed
  /-- A value of another kind than expected. -/
  | invalidType (found : Unexpected) (expected : String)
  /-- A value of the right kind that is out of place. -/
  | invalidValue (found : Unexpected) (expected : String)
  /-- A list that ends too early. -/
  | invalidLength (length : Nat) (expected : String)
  | missingField (name : String)
  /-- A field stands twice. -/
  | duplicateField (name : String)
  /-- A field that the record does not have. -/
  | unknownField (name : String) (known : List String)
  /-- A choice that does not exist. -/
  | unknownVariant (name : String) (known : List String)
  /-- None of the forms of a value fits. -/
  | unmatched (kind : String)
  /-- Something is wrong at a place inside the data. -/
  | inside (place : String) (cause : DecodeError)
  deriving DecidableEq, Repr

/-- How a format speaks about its values. -/
structure Wording where
  /-- The complaint about a text that does not follow the format. -/
  malformed : String
  /-- The name of the missing value. -/
  unit : String
  /-- How numbers are written. -/
  layout : Layout

/-- The name of the value in a complaint. -/
def Unexpected.phrase (wording : Wording) : Unexpected → String
  | unit => wording.unit
  | bool value => s!"boolean `{value}`"
  | integer value => s!"integer `{value}`"
  | wideInteger value =>
      let width := if value < 0 then "i128" else "u128"
      s!"integer `{value}` as {width}"
  | float value => s!"floating point `{wording.layout.describe value}`"
  | text value => "string " ++ Text.shown value
  | sequence => "sequence"
  | map => "map"
  | bareChoice => "unit variant"

namespace DecodeError

/-- The names that would have been right. -/
def alternatives (noun : String) : List String → String
  | [] => s!"there are no {noun}s"
  | [name] => s!"expected `{name}`"
  | [first, second] => s!"expected `{first}` or `{second}`"
  | names => "expected one of " ++ ", ".intercalate (names.map fun name => s!"`{name}`")

/-- The text of the complaint. A place inside the data is named only for data that follows the
format. -/
def message (wording : Wording) : DecodeError → String
  | malformed => wording.malformed
  | invalidType found expected =>
      s!"invalid type: {found.phrase wording}, expected {expected}"
  | invalidValue found expected =>
      s!"invalid value: {found.phrase wording}, expected {expected}"
  | invalidLength length expected => s!"invalid length {length}, expected {expected}"
  | missingField name => s!"missing field `{name}`"
  | duplicateField name => s!"duplicate field `{name}`"
  | unknownField name known => s!"unknown field `{name}`, " ++ alternatives "field" known
  | unknownVariant name known => s!"unknown variant `{name}`, " ++ alternatives "variant" known
  | unmatched kind => s!"data did not match any variant of untagged enum {kind}"
  | inside _ malformed => wording.malformed
  | inside place cause => s!"{place}: {cause.message wording}"

end DecodeError

end MetricCatalog
