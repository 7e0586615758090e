/-
# Writing JSON text

Two forms: a compact one without any space, and one with a line for every field
and item, indented by two spaces.
-/

import MetricCatalog.Json.Basic

namespace MetricCatalog

namespace Json

/-- A character as it stands in a string: quotes, backslashes and control characters are
escaped, and the common ones of these have a letter. -/
def escaped (c : Char) : List Char :=
  match c with
  | '"' => ['\\', '"']
  | '\\' => ['\\', '\\']
  | '\x08' => ['\\', 'b']
  | '\x0c' => ['\\', 'f']
  | '\n' => ['\\', 'n']
  | '\r' => ['\\', 'r']
  | '\t' => ['\\', 't']
  | c => if c.toNat < 32 then '\\' :: 'u' :: Text.paddedHexDigits 4 c.toNat else [c]

/-- A string in quotes. -/
def quotedString (text : String) : List Char := '"' :: text.toList.flatMap escaped ++ ['"']

/-- A value without parts. -/
def scalarText : Json → List Char
  | null => "null".toList
  | bool true => "true".toList
  | bool false => "false".toList
  | num numeral => numeral.text
  | str text => quotedString text
  | unpaired | arr _ | obj _ | broken => []

mutual

/-- The compact form. -/
def compactText : Json → List Char
  | arr items => '[' :: compactItems items
  | obj fields => '{' :: compactFields fields
  | value => value.scalarText
termination_by structural value => value

/-- The compact form of items, and the closing bracket. -/
def compactItems : List Json → List Char
  | [] => [']']
  | item :: rest =>
      item.compactText ++
        match rest with
        | [] => [']']
        | rest => ',' :: compactItems rest
termination_by structural items => items

/-- The compact form of fields, and the closing brace. -/
def compactFields : List (Json × Json) → List Char
  | [] => ['}']
  | (key, value) :: rest =>
      key.compactText ++ ':' :: value.compactText ++
        match rest with
        | [] => ['}']
        | rest => ',' :: compactFields rest
termination_by structural fields => fields

end

/-- The start of a line at some depth. -/
def lineStart (depth : Nat) : List Char := '\n' :: List.replicate (2 * depth) ' '

mutual

/-- The form with lines, at some depth. -/
def prettyText (level : Nat) : Json → List Char
  | arr [] => ['[', ']']
  | arr items => '[' :: prettyItems level items
  | obj [] => ['{', '}']
  | obj fields => '{' :: prettyFields level fields
  | value => value.scalarText
termination_by structural value => value

/-- Items with a line each, and the closing bracket on its own line. -/
def prettyItems (level : Nat) : List Json → List Char
  | [] => lineStart level ++ [']']
  | item :: rest =>
      lineStart (level + 1) ++ item.prettyText (level + 1) ++
        match rest with
        | [] => lineStart level ++ [']']
        | rest => ',' :: prettyItems level rest
termination_by structural items => items

/-- Fields with a line each, and the closing brace on its own line. -/
def prettyFields (level : Nat) : List (Json × Json) → List Char
  | [] => lineStart level ++ ['}']
  | (key, value) :: rest =>
      lineStart (level + 1) ++ key.compactText ++ ':' :: ' ' :: value.prettyText (level + 1) ++
        match rest with
        | [] => lineStart level ++ ['}']
        | rest => ',' :: prettyFields level rest
termination_by structural fields => fields

end

/-- The text in the compact form. -/
def compact (value : Json) : String := String.ofList value.compactText

/-- The text with a line for every part. -/
def pretty (value : Json) : String := String.ofList (value.prettyText 0)

end Json

end MetricCatalog
