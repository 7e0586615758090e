/-
# JSON values

The tree of a JSON text. It may be the tree of a text that is not JSON: the
place where the text stops making sense is then a leaf of its own, `broken`, so
that a reader that walks the tree in the order of the text meets whatever is
wrong with the data before it first, as if it had read the text itself.

A key is a value like any other here; whoever reads an object wants strings.
-/

import MetricCatalog.Number.Numeral

namespace MetricCatalog

/-- A JSON value, or as much of it as the text has. -/
inductive Json
  | null
  | bool (value : Bool)
  /-- A number as it is written. -/
  | num (numeral : Numeral)
  | str (text : String)
  /-- A string with half of a surrogate pair in it, which is no text. -/
  | unpaired
  | arr (items : List Json)
  /-- An object, with the fields in the order of the text. -/
  | obj (fields : List (Json × Json))
  /-- The place where the text is no longer JSON. -/
  | broken
  deriving Repr, Inhabited

namespace Json

/-- An object with the given fields. -/
def record (fields : List (String × Json)) : Json :=
  .obj (fields.map fun field => (.str field.1, field.2))

/-- A natural number. -/
def nat (n : Nat) : Json := .num (.ofNat n)

/-- A value that may be missing. -/
def ofOption (value : Option Json) : Json := value.getD .null

mutual

/-- Whether the text of the value is JSON, whatever its numbers and strings mean. -/
def isComplete : Json → Bool
  | null | bool _ | num _ | str _ | unpaired => true
  | arr items => completeItems items
  | obj fields => completeFields fields
  | broken => false
termination_by structural value => value

/-- Whether every item is complete. -/
def completeItems : List Json → Bool
  | [] => true
  | item :: rest => item.isComplete && completeItems rest
termination_by structural items => items

/-- Whether every field is complete and every key a string. -/
def completeFields : List (Json × Json) → Bool
  | [] => true
  | (key, value) :: rest =>
      (match key with
        | str _ | unpaired => true
        | _ => false) && value.isComplete && completeFields rest
termination_by structural fields => fields

end

mutual

/-- How many arrays and objects stand inside one another at most. -/
def depth : Json → Nat
  | arr items => itemsDepth items + 1
  | obj fields => fieldsDepth fields + 1
  | _ => 0
termination_by structural value => value

/-- The depth of the deepest item. -/
def itemsDepth : List Json → Nat
  | [] => 0
  | item :: rest => max item.depth (itemsDepth rest)
termination_by structural items => items

/-- The depth of the deepest value of a field. -/
def fieldsDepth : List (Json × Json) → Nat
  | [] => 0
  | (_, value) :: rest => max value.depth (fieldsDepth rest)
termination_by structural fields => fields

end

end Json

end MetricCatalog
