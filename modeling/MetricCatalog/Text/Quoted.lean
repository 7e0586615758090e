/-
# Quoting by doubling

A quoted text stands between two quotes, and a quote inside it is written
twice. Identifiers are quoted with double quotes and strings with single ones.
-/

namespace MetricCatalog.Text

/-- The text with every quote written twice. -/
def doubled (quote : Char) : List Char → List Char
  | [] => []
  | c :: rest =>
      if c = quote then quote :: quote :: doubled quote rest
      else c :: doubled quote rest

/-- The text between two quotes, with the quotes inside it doubled. -/
def quoted (quote : Char) (text : List Char) : List Char :=
  quote :: doubled quote text ++ [quote]

/-- The identifier in double quotes. -/
def quoteIdentifier (name : String) : String :=
  String.ofList (quoted '"' name.toList)

/-- The text as a string literal in single quotes. -/
def quoteString (text : String) : String :=
  String.ofList (quoted '\'' text.toList)

@[simp] theorem doubled_nil (quote : Char) : doubled quote [] = [] := rfl

end MetricCatalog.Text
