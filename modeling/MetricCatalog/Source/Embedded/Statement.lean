/-
# Statements for embedded databases

The statements that an embedded database understands: tables are created, rows
are put into them, and rows are selected. A reader takes the first statement of
a text; what follows it has no effect.
-/

import MetricCatalog.Source.Embedded.Token
import MetricCatalog.Source.Value

namespace MetricCatalog

namespace Embedded

/-- Why a statement is not carried out. -/
inductive Refusal
  /-- The complaint points to a place in the text. -/
  | at (complaint : String) (offset : Nat)
  /-- The complaint is about no place in particular. -/
  | general (complaint : String)
  deriving DecidableEq, Repr

/-- The text of the complaint about a statement. -/
def Refusal.message (sql : String) : Refusal → String
  | .at complaint offset => s!"{complaint} in {sql} at offset {offset}"
  | general complaint => complaint

/-- A table by its name, perhaps in a schema. -/
structure TableName where
  schema : Option Lexeme
  table : Lexeme
  deriving Repr

/-- A value that is computed for a row. -/
inductive Expr
  | literal (value : Value)
  /-- A column, or a text in the wrong quotes. -/
  | column (path : List Lexeme)
  /-- The number of rows. -/
  | count
  | product (left right : Expr)
  | negative (value : Expr)
  | parameter
  deriving Repr

/-- How two values are compared. -/
inductive Comparison
  | eq | ne | lt | le | gt | ge
  deriving DecidableEq, Repr

/-- A condition on a row. -/
structure Condition where
  left : Expr
  comparison : Comparison
  right : Expr
  deriving Repr

/-- A column of the output. -/
inductive Output
  /-- Every column of the table. -/
  | all
  /-- A value, with the name it is given or the text that stands for it. -/
  | value (expr : Expr) (caption : Option String) (text : String)
  deriving Repr

/-- A column in the declaration of a table. -/
structure ColumnDeclaration where
  name : Lexeme
  type : String
  isKey : Bool
  isUnique : Bool
  isRequired : Bool
  deriving Repr

/-- A statement. -/
inductive Statement
  | createTable (ifMissing : Bool) (name : TableName) (columns : List ColumnDeclaration)
      (keys : List (List Lexeme))
  | insert (name : TableName) (columns : Option (List Lexeme)) (rows : List (List Expr))
  | select (outputs : List Output) (table : Option TableName) (conditions : List Condition)
      (order : List (Expr × Bool))
  deriving Repr

/-- A reader of some tokens. -/
abbrev Reader (α : Type) := StateT (List Lexeme) (Except Refusal) α

namespace Reader

/-- The next token. -/
def next? : Reader (Option Lexeme) := do return (← get).head?

/-- Goes over a token. -/
def advance : Reader Unit := modify (List.drop 1)

/-- The statement is wrong at the next token. -/
def refuse {α : Type} (sql : String) : Reader α := do
  match ← next? with
  | none => throw (.general "incomplete input")
  | some lexeme =>
      match lexeme.token with
      | .finish => throw (.general "incomplete input")
      | .unknown =>
          let raw := lexeme.raw
          throw (.at s!"unrecognized token: \"{raw}\"" (lexeme.offset sql))
      | _ =>
          let raw := lexeme.raw
          throw (.at s!"near \"{raw}\": syntax error" (lexeme.offset sql))

/-- Whether the token is a word, in letters of any case. -/
def isWord (word : String) (lexeme : Lexeme) : Bool :=
  match lexeme.token with
  | .word text => text.toLower = word
  | _ => false

/-- Whether the token is a mark. -/
def isMark (mark : String) (lexeme : Lexeme) : Bool := lexeme.token = .mark mark

/-- Goes over the next token if it is of a kind. -/
def skips (is : Lexeme → Bool) : Reader Bool := do
  if (← next?).any is then
    advance
    return true
  return false

/-- Goes over the next token, which has to be of a kind. -/
def expect (sql : String) (is : Lexeme → Bool) : Reader Unit := do
  if !(← skips is) then refuse sql

/-- The words that are no names. -/
def reserved : List String :=
  ["and", "as", "asc", "by", "constraint", "create", "default", "desc", "distinct", "from",
    "group", "having", "in", "insert", "into", "is", "join", "limit", "not", "null", "on", "or",
    "order", "primary", "references", "select", "set", "table", "union", "unique", "values",
    "where", "check", "collate"]

/-- Whether the token is a name. -/
def isName (lexeme : Lexeme) : Bool :=
  match lexeme.token with
  | .word text => !reserved.contains text.toLower
  | .name _ | .text _ => true
  | _ => false

/-- The next token, which has to be a name. -/
def name (sql : String) : Reader Lexeme := do
  match ← next? with
  | some lexeme =>
      if isName lexeme then
        advance
        return lexeme
      refuse sql
  | none => refuse sql

/-- The name of a table. -/
def tableName (sql : String) : Reader TableName := do
  let first ← name sql
  if ← skips (isMark ".") then return ⟨some first, ← name sql⟩
  return ⟨none, first⟩

/-- One item after another, with commas between them. The fuel bounds their number. -/
def separated {α : Type} (item : Reader α) : Nat → Reader (List α)
  | 0 => return []
  | fuel + 1 => do
      let first ← item
      if ← skips (isMark ",") then return first :: (← separated item fuel)
      return [first]

/-- A natural number as a value. One beyond 64 bits is not exact. -/
def ofNatural (negative : Bool) (n : Nat) : Value :=
  match Literal.intOf negative n with
  | some value => .int value
  | none => .float (.ofInt (if negative then -(n : Int) else n))

mutual

/-- A product of factors. The fuel bounds the depth. -/
def expression (sql : String) : Nat → Reader Expr
  | 0 => refuse sql
  | fuel + 1 => do
      let first ← factor sql fuel
      productFrom sql first fuel

/-- The rest of a product. -/
def productFrom (sql : String) (left : Expr) : Nat → Reader Expr
  | 0 => return left
  | fuel + 1 => do
      if ← skips (isMark "*") then
        let right ← factor sql fuel
        productFrom sql (.product left right) fuel
      else return left

/-- A factor of a product. -/
def factor (sql : String) : Nat → Reader Expr
  | 0 => refuse sql
  | fuel + 1 => do
      let tokens ← get
      match tokens with
      | [] => refuse sql
      | lexeme :: rest =>
          match lexeme.token with
          | .text value => set rest; return .literal (.text value)
          | .bytes value => set rest; return .literal (.bytes value)
          | .natural n => set rest; return .literal (ofNatural false n)
          | .decimal value => set rest; return .literal (.float value)
          | .parameter => set rest; return .parameter
          | .mark "+" => set rest; factor sql fuel
          | .mark "-" =>
              match rest with
              | ⟨.natural n, _, _⟩ :: rest => set rest; return .literal (ofNatural true n)
              | _ => set rest; return .negative (← factor sql fuel)
          | .mark "(" =>
              set rest
              let value ← expression sql fuel
              expect sql (isMark ")")
              return value
          | .word text =>
              match text.toLower with
              | "null" => set rest; return .literal .null
              | "true" => set rest; return .literal (.int 1)
              | "false" => set rest; return .literal (.int 0)
              | "count" =>
                  if rest.head?.any (isMark "(") then
                    set (rest.drop 1)
                    expect sql (isMark "*")
                    expect sql (isMark ")")
                    return .count
                  else columnPath sql
              | _ => columnPath sql
          | .name _ => columnPath sql
          | _ => refuse sql

/-- A column, perhaps with the name of its table in front. -/
def columnPath (sql : String) : Reader Expr := do
  let first ← name sql
  if ← skips (isMark ".") then
    let second ← name sql
    if ← skips (isMark ".") then return .column [first, second, ← name sql]
    return .column [first, second]
  return .column [first]

end

/-- The comparison that a mark stands for. -/
def comparison? (lexeme : Lexeme) : Option Comparison :=
  match lexeme.token with
  | .mark "=" | .mark "==" => some .eq
  | .mark "!=" | .mark "<>" => some .ne
  | .mark "<" => some .lt
  | .mark "<=" => some .le
  | .mark ">" => some .gt
  | .mark ">=" => some .ge
  | _ => none

/-- A condition. -/
def condition (sql : String) (fuel : Nat) : Reader Condition := do
  let left ← expression sql fuel
  match (← next?).bind comparison? with
  | none => refuse sql
  | some comparison =>
      advance
      return ⟨left, comparison, ← expression sql fuel⟩

/-- Conditions that all have to hold. The fuel bounds their number. -/
def conditions (sql : String) : Nat → Reader (List Condition)
  | 0 => return []
  | fuel + 1 => do
      let first ← condition sql fuel
      if ← skips (isWord "and") then return first :: (← conditions sql fuel)
      return [first]

/-- A column of the output. -/
def output (sql : String) (fuel : Nat) : Reader Output := do
  if ← skips (isMark "*") then return .all
  let start ← next?
  let expr ← expression sql fuel
  let stop ← next?
  let text :=
    match start, stop with
    | some start, some stop => String.ofList (start.upTo stop)
    | _, _ => ""
  let named ← skips (isWord "as")
  let caption ← if named || (← next?).any isName then (some <$> name sql) else pure none
  let caption := caption.map fun lexeme =>
    match lexeme.token with
    | .name value | .text value => value
    | _ => lexeme.raw
  return .value expr caption text

/-- A column or value by which rows are ordered, and whether the order is turned around. -/
def ordering (sql : String) (fuel : Nat) : Reader (Expr × Bool) := do
  let expr ← expression sql fuel
  if ← skips (isWord "desc") then return (expr, true)
  let _ ← skips (isWord "asc")
  return (expr, false)

/-- A selection behind its first word. -/
def selection (sql : String) (fuel : Nat) : Reader Statement := do
  let outputs ← separated (output sql fuel) fuel
  let table ← if ← skips (isWord "from") then (some <$> tableName sql) else pure none
  let filter ← if ← skips (isWord "where") then conditions sql fuel else pure []
  if ← skips (isWord "order") then
    expect sql (isWord "by")
    return .select outputs table filter (← separated (ordering sql fuel) fuel)
  return .select outputs table filter []

/-- The words of a type. The fuel bounds their number. -/
def typeWords : Nat → Reader Unit
  | 0 => return ()
  | fuel + 1 => do
      if ← skips isName then typeWords fuel

/-- A number in the brackets of a type. -/
def typeNumber (sql : String) : Reader Unit := do
  let _ ← skips fun lexeme => isMark "+" lexeme || isMark "-" lexeme
  expect sql fun lexeme =>
    match lexeme.token with
    | .natural _ | .decimal _ => true
    | _ => false

/-- The type of a column, as it is written; it may be left out. -/
def columnType (sql : String) (fuel : Nat) : Reader String := do
  let start ← next?
  if !start.any isName then return ""
  typeWords fuel
  if ← skips (isMark "(") then
    let _ ← separated (typeNumber sql) fuel
    expect sql (isMark ")")
  let stop ← next?
  match start, stop with
  | some start, some stop => return String.ofList (start.upTo stop)
  | _, _ => return ""

/-- What is said about a column behind its type. The fuel bounds the number of sayings. -/
def constraints (sql : String) : Nat → ColumnDeclaration → Reader ColumnDeclaration
  | 0, column => return column
  | fuel + 1, column => do
      if ← skips (isWord "primary") then
        expect sql (isWord "key")
        let _ ← skips fun lexeme => isWord "asc" lexeme || isWord "desc" lexeme
        let _ ← skips (isWord "autoincrement")
        constraints sql fuel { column with isKey := true }
      else if ← skips (isWord "not") then
        expect sql (isWord "null")
        constraints sql fuel { column with isRequired := true }
      else if ← skips (isWord "null") then constraints sql fuel column
      else if ← skips (isWord "unique") then
        constraints sql fuel { column with isUnique := true }
      else return column

/-- A column of a new table. -/
def columnDeclaration (sql : String) (fuel : Nat) : Reader ColumnDeclaration := do
  let name ← name sql
  let type ← columnType sql fuel
  constraints sql fuel ⟨name, type, false, false, false⟩

/-- The columns of a new table, and the keys of more than one column. -/
def declarations (sql : String) : Nat → Reader (List ColumnDeclaration × List (List Lexeme))
  | 0 => return ([], [])
  | fuel + 1 => do
      let isKey ← skips (isWord "primary")
      if isKey then expect sql (isWord "key")
      let isGroup ← if isKey then pure true else skips (isWord "unique")
      let here ←
        if isGroup then do
          expect sql (isMark "(")
          let names ← separated (name sql) fuel
          expect sql (isMark ")")
          pure ([], [names])
        else do pure ([← columnDeclaration sql fuel], [])
      if ← skips (isMark ",") then
        let rest ← declarations sql fuel
        return (here.1 ++ rest.1, here.2 ++ rest.2)
      return here

/-- A list of values in brackets. -/
def valueRow (sql : String) (fuel : Nat) : Reader (List Expr) := do
  expect sql (isMark "(")
  let values ← separated (expression sql fuel) fuel
  expect sql (isMark ")")
  return values

/-- A statement. -/
def statement (sql : String) (fuel : Nat) : Reader Statement := do
  let result ←
    if ← skips (isWord "select") then selection sql fuel
    else if ← skips (isWord "insert") then do
      expect sql (isWord "into")
      let table ← tableName sql
      let columns ←
        if ← skips (isMark "(") then do
          let names ← separated (name sql) fuel
          expect sql (isMark ")")
          pure (some names)
        else pure none
      expect sql (isWord "values")
      pure (.insert table columns (← separated (valueRow sql fuel) fuel))
    else if ← skips (isWord "create") then do
      expect sql (isWord "table")
      let ifMissing ← skips (isWord "if")
      if ifMissing then
        expect sql (isWord "not")
        expect sql (isWord "exists")
      let table ← tableName sql
      expect sql (isMark "(")
      let (columns, keys) ← declarations sql fuel
      expect sql (isMark ")")
      pure (.createTable ifMissing table columns keys)
    else refuse sql
  match ← next? with
  | none => return result
  | some lexeme =>
      if lexeme.token = .finish || isMark ";" lexeme then return result
      refuse sql

end Reader

/-- The tokens of the first statement of a text. -/
def firstTokens (sql : String) : List Lexeme :=
  (lexemes (sql.length + 1) sql.toList).dropWhile (Reader.isMark ";")

/-- The first statement of a text, if there is one. -/
def parse (sql : String) : Except Refusal (Option Statement) :=
  let tokens := firstTokens sql
  match tokens.head? with
  | none => .ok none
  | some lexeme =>
      if lexeme.token = .finish then .ok none
      else ((Reader.statement sql (4 * tokens.length + 4)).run tokens).map fun result =>
        some result.1

end Embedded

end MetricCatalog
