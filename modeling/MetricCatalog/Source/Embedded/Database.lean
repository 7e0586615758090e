/-
# Embedded databases

Tables in which every value keeps its own kind, bent towards the declared type
of its column, and what statements do to them. A database is kept as the
statements that made it, which are carried out again when it is opened.
-/

import MetricCatalog.Json.Parser
import MetricCatalog.Json.Printer
import MetricCatalog.Source.Embedded.Statement
import MetricCatalog.Source.Kind

namespace MetricCatalog

namespace Embedded

/-- Towards what kind the values of a column are bent. -/
inductive Affinity
  | integer | text | none | real | numeric
  deriving DecidableEq, Repr

/-- The affinity of a declared type, by the words in it. -/
def Affinity.ofType (type : String) : Affinity :=
  let words := SourceKind.lowered type
  if SourceKind.containsAny ["int"] words then .integer
  else if SourceKind.containsAny ["char", "clob", "text"] words then .text
  else if words.isEmpty || SourceKind.containsAny ["blob"] words then .none
  else if SourceKind.containsAny ["real", "floa", "doub"] words then .real
  else .numeric

/-- A number as an integer if it is one of 64 bits, as it is otherwise. -/
def ofWhole (x : Double) : Value :=
  if !x.isFinite then .float x
  else
    let (above, below) := x.magnitude
    if above % below = 0 then
      match Literal.intOf x.isNegative (above / below) with
      | some n => .int n
      | none => .float x
    else .float x

/-- The number that a whole text writes, with spaces around it allowed. -/
def numberIn? (text : String) : Option Value :=
  let trimmed := ((text.toList.dropWhile isSpace).reverse.dropWhile isSpace).reverse
  match Literal.number? trimmed with
  | some (.int n) => some (.int n)
  | some (.float x) => some (ofWhole x)
  | _ =>
      let (negative, body) := Literal.splitSign trimmed
      (Literal.float? negative body).map .float

/-- The number at the start of a text, behind spaces; zero if there is none. -/
def leadingNumber (text : String) : Value :=
  let (negative, body) := Literal.splitSign (text.toList.dropWhile isSpace)
  let (whole, fraction, exponent) := numeralParts body
  if whole.isEmpty && fraction.length ≤ 1 then .int 0
  else
    let isWhole := fraction.isEmpty && exponent.isEmpty
    match if isWhole then Literal.intOf negative (Text.decimalValue whole) else none with
    | some n => .int n
    | none =>
        .float ((Literal.float? negative (whole ++ fraction ++ exponent)).getD (.infinity negative))

/-- A value bent towards a kind. Only what can be turned back is changed. -/
def Affinity.bend (affinity : Affinity) (value : Value) : Value :=
  match affinity, value with
  | .text, .int n => .text (toString n.toInt)
  | .text, .float x => .text (Layout.sql.describe x)
  | .integer, .text written | .numeric, .text written => (numberIn? written).getD value
  | .integer, .float x | .numeric, .float x => ofWhole x
  | .real, .int n => .float (.ofInt n.toInt)
  | .real, .text written =>
      match numberIn? written with
      | some (.int n) => .float (.ofInt n.toInt)
      | some number => number
      | Option.none => value
  | _, _ => value

/-- The rank of the kinds of values in their order. -/
def valueRank : Value → Nat
  | .null => 0
  | .bool _ | .int _ | .float _ => 1
  | .text _ => 2
  | .bytes _ => 3

/-- The order of two values: by kind, and then by size, letters or bytes. -/
def compareValues (left right : Value) : Ordering :=
  match left, right with
  | .int m, .int n => compare m.toInt n.toInt
  | .float x, .int n => x.compareInt n.toInt
  | .int m, .float y => (y.compareInt m.toInt).swap
  | .float x, .float y => compare x.orderKey y.orderKey
  | .text s, .text t => if s < t then .lt else if s = t then .eq else .gt
  | .bytes s, .bytes t =>
      let s := s.map UInt8.toNat
      let t := t.map UInt8.toNat
      if s < t then .lt else if s = t then .eq else .gt
  | _, _ => compare (valueRank left) (valueRank right)

/-- Whether a comparison holds; of the missing value none does. -/
def Comparison.holds (comparison : Comparison) (left right : Value) : Bool :=
  if left = .null || right = .null then false
  else
    let order := compareValues left right
    match comparison with
    | .eq => order = .eq
    | .ne => order ≠ .eq
    | .lt => order = .lt
    | .le => order ≠ .gt
    | .gt => order = .gt
    | .ge => order ≠ .lt

/-- A column of a table. -/
structure TableColumn where
  name : String
  /-- The declared type; empty if there is none. -/
  type : String
  isRequired : Bool
  deriving DecidableEq, Repr

/-- A table. -/
structure Table where
  name : String
  columns : List TableColumn
  /-- The column that holds the number of the row. -/
  rowColumn : Option Nat
  /-- The groups of columns whose values must not occur twice. -/
  keys : List (List Nat)
  /-- The rows by their numbers, in order. -/
  rows : KeyMap Nat Row
  deriving Repr

/-- The tables of a database. -/
structure Database where
  /-- The statements that made it, in order. -/
  statements : List String
  tables : List Table
  deriving Repr

instance : Inhabited Database := ⟨⟨[], []⟩⟩

/-- The output of a statement. -/
structure Outcome where
  /-- The names of the columns and their declared types. -/
  columns : List (String × Option String)
  rows : List Row
  deriving DecidableEq, Repr

/-- Whether two names mean the same; small and capital letters do not differ. -/
def sameName (first second : String) : Bool :=
  SourceKind.lowered first = SourceKind.lowered second

/-- The name that a token is. -/
def Lexeme.name (lexeme : Lexeme) : String :=
  match lexeme.token with
  | .word text | .name text | .text text => text
  | _ => lexeme.raw

namespace Table

/-- The place of a column by its name. -/
def column? (table : Table) (name : String) : Option Nat :=
  table.columns.findIdx? fun column => sameName column.name name

/-- The number of a row, as a key. Negative numbers stand before the others. -/
def keyOf (n : Int64) : Nat := (n.toInt - Int64.minValue.toInt).toNat

/-- The number that a key stands for. -/
def numberOf (key : Nat) : Int64 := Int64.ofInt (key + Int64.minValue.toInt)

/-- The key that the next row gets. -/
def nextKey (table : Table) : Nat :=
  match table.rows.keys.getLast? with
  | some last => last + 1
  | none => keyOf 1

/-- The names of columns in a complaint. -/
def columnNames (table : Table) (places : List Nat) : String :=
  ", ".intercalate <| places.map fun place =>
    table.name ++ "." ++ ((table.columns[place]?).map TableColumn.name).getD ""

/-- Whether a row has the values of another one in some columns, none of them missing. -/
def agreesOn (places : List Nat) (first second : Row) : Bool :=
  places.all fun place =>
    match first[place]?, second[place]? with
    | some left, some right => left ≠ .null && compareValues left right = .eq
    | _, _ => false

/-- The table with one more row, whose values have been bent. -/
def insertRow (table : Table) (row : Row) : Except String Table := do
  let numbered ←
    match table.rowColumn with
    | none => .ok (table.nextKey, row)
    | some place =>
        match row[place]? with
        | some (.int n) => .ok (keyOf n, row)
        | some .null =>
            let key := table.nextKey
            .ok (key, row.set place (.int (numberOf key)))
        | _ => .error "datatype mismatch"
  let (key, row) := numbered
  match (row.zipIdx.zip table.columns).find? fun (value, column) =>
      column.isRequired && value.1 = .null with
  | some (value, _) =>
      .error ("NOT NULL constraint failed: " ++ table.columnNames [value.2])
  | none =>
      if table.rows.contains key then
        .error ("UNIQUE constraint failed: " ++ table.columnNames table.rowColumn.toList)
      else
        match table.keys.find? fun places => table.rows.values.any (agreesOn places row) with
        | some places => .error ("UNIQUE constraint failed: " ++ table.columnNames places)
        | none => .ok { table with rows := table.rows.insert key row }

end Table

/-- What an expression is computed from. -/
structure Scope where
  /-- The table that is read. -/
  table : Option Table
  row : Row
  /-- The number of rows. -/
  count : Nat

/-- The column that a path names in a table. -/
def findColumn? (table : Option Table) (path : List Lexeme) : Option Nat := do
  let table ← table
  match path with
  | [column] => table.column? column.name
  | [owner, column] =>
      if sameName owner.name table.name then table.column? column.name else none
  | [schema, owner, column] =>
      if sameName schema.name "main" && sameName owner.name table.name then
        table.column? column.name
      else none
  | _ => none

namespace Expr

/-- The text that a path means if it names no column: a name in double quotes stands for itself. -/
def fallback? (path : List Lexeme) : Option Value :=
  match path with
  | [lexeme] =>
      match lexeme.token with
      | .name text => if lexeme.text.head? = some '"' then some (.text text) else none
      | _ => none
  | _ => none

/-- Checks that every column in the expression exists. -/
def check (sql : String) (table : Option Table) : Expr → Except Refusal Unit
  | literal _ | count | parameter => .ok ()
  | product left right => do
      left.check sql table
      right.check sql table
  | negative value => value.check sql table
  | column path =>
      if (findColumn? table path).isSome || (fallback? path).isSome then .ok ()
      else
        let name := ".".intercalate (path.map Lexeme.name)
        .error (.at s!"no such column: {name}" ((path.head?.map (Lexeme.offset sql)).getD 0))

/-- The number of values that are given later. -/
def parameters : Expr → Nat
  | parameter => 1
  | product left right => left.parameters + right.parameters
  | negative value => value.parameters
  | literal _ | count | column _ => 0

/-- Whether the expression counts rows. -/
def counts : Expr → Bool
  | count => true
  | product left right => left.counts || right.counts
  | negative value => value.counts
  | literal _ | parameter | column _ => false

/-- The affinity of the expression; only columns have one. -/
def affinity (table : Option Table) : Expr → Option Affinity
  | column path => do
      let place ← findColumn? table path
      let column ← (← table).columns[place]?
      some (.ofType column.type)
  | _ => none

/-- A value as a number. -/
def number (value : Value) : Value :=
  match value with
  | .text text => leadingNumber text
  | .bytes _ => .int 0
  | value => value

/-- The product of two numbers. One of integers that has more than 64 bits is not exact. -/
def multiply (left right : Value) : Value :=
  let toDouble (value : Value) : Double :=
    match value with
    | .int n => .ofInt n.toInt
    | .float x => x
    | _ => .zero false
  match number left, number right with
  | .null, _ | _, .null => .null
  | .int m, .int n =>
      let exact := m.toInt * n.toInt
      match Literal.intOf (exact < 0) exact.natAbs with
      | some whole => .int whole
      | none => .float ((Double.ofInt m.toInt).mul (.ofInt n.toInt))
  | left, right => .float ((toDouble left).mul (toDouble right))

/-- The value of the expression. -/
def eval (scope : Scope) : Expr → Value
  | literal value => value
  | count => .int (Int64.ofNat scope.count)
  | parameter => .null
  | product left right => multiply (left.eval scope) (right.eval scope)
  | negative value => multiply (.int (-1)) (value.eval scope)
  | column path =>
      match findColumn? scope.table path with
      | some place => (scope.row[place]?).getD .null
      | none => (fallback? path).getD .null

end Expr

/-- Whether a condition holds. Before the comparison a side without an affinity is bent towards
that of the other side. -/
def Condition.holds (condition : Condition) (scope : Scope) : Bool :=
  let isNumeric (affinity : Option Affinity) : Bool :=
    affinity = some .integer || affinity = some .real || affinity = some .numeric
  let leftKind := condition.left.affinity scope.table
  let rightKind := condition.right.affinity scope.table
  let bendTo (other mine : Option Affinity) (value : Value) : Value :=
    if isNumeric other && !isNumeric mine then Affinity.numeric.bend value
    else if other = some .text && mine = none then Affinity.text.bend value
    else value
  condition.comparison.holds (bendTo rightKind leftKind (condition.left.eval scope))
    (bendTo leftKind rightKind (condition.right.eval scope))

namespace Database

/-- The table of a name. -/
def table? (database : Database) (name : String) : Option Table :=
  database.tables.find? fun table => sameName table.name name

/-- The table that a statement names. -/
def findTable (database : Database) (name : TableName) : Except Refusal Table :=
  let schema := name.schema.map Lexeme.name
  match (if schema.all (sameName "main") then database.table? name.table.name else none) with
  | some table => .ok table
  | none =>
      let shown := ".".intercalate (schema.toList ++ [name.table.name])
      .error (.general s!"no such table: {shown}")

/-- The types that are always written in capital letters. -/
def plainTypes : List String := ["ANY", "BLOB", "INT", "INTEGER", "REAL", "TEXT"]

/-- A declared type as it is kept. -/
def keptType (type : String) : String := (plainTypes.find? (sameName type)).getD type

/-- What is wrong with a column of a table, in view of the columns before it. -/
def declarationFault? (table : String) (before : List ColumnDeclaration)
    (column : ColumnDeclaration) : Option Refusal :=
  if before.any fun other => sameName other.name.name column.name.name then
    some (.general s!"duplicate column name: {column.name.name}")
  else if column.isKey && before.any (·.isKey) then
    some (.general ("table \"" ++ table ++ "\" has more than one primary key"))
  else none

/-- Creates a table. -/
def createTable (database : Database) (sql : String) (ifMissing : Bool) (name : TableName)
    (declared : List ColumnDeclaration) (groups : List (List Lexeme)) :
    Except Refusal Database := do
  if (database.table? name.table.name).isSome then
    let raw := name.table.raw
    if ifMissing then return database
    else throw (.at s!"table {raw} already exists" (name.table.offset sql))
  let columns := declared.map fun column =>
    (⟨column.name.name, keptType column.type, column.isRequired⟩ : TableColumn)
  match declared.zipIdx.findSome? fun (column, place) =>
      declarationFault? name.table.name (declared.take place) column with
  | some refusal => throw refusal
  | none =>
      let rowColumn := declared.findIdx? fun column =>
        column.isKey && sameName column.type "integer"
      let single := declared.zipIdx.filterMap fun (column, place) =>
        if (column.isKey || column.isUnique) && rowColumn ≠ some place then some [place] else none
      let grouped := groups.map fun group =>
        group.filterMap fun lexeme => columns.findIdx? fun column =>
          sameName column.name lexeme.name
      let table : Table := ⟨name.table.name, columns, rowColumn, single ++ grouped, .empty⟩
      return { database with tables := database.tables ++ [table] }

/-- The values of a new row in the order of the table's columns. -/
def arrange (table : Table) (places : Option (List Nat)) (values : List Value) : Row :=
  let row :=
    match places with
    | none => values
    | some places =>
        table.columns.zipIdx.map fun (_, place) =>
          let given := (places.zip values).find? fun (other, _) => other = place
          (given.map (·.2)).getD .null
  List.zipWith (fun column value => (Affinity.ofType column.type).bend value) table.columns row

/-- Puts rows into a table, all or none of them. -/
def insertRows (database : Database) (sql : String) (name : TableName)
    (columns : Option (List Lexeme)) (rows : List (List Expr)) : Except Refusal Database := do
  let table ← database.findTable name
  let places ← columns.mapM fun names =>
    names.mapM fun lexeme =>
      match table.column? lexeme.name with
      | some place => Except.ok place
      | none =>
          throw (Refusal.general s!"table {table.name} has no column named {lexeme.name}")
  for row in rows do
    for value in row do
      value.check sql none
  let width := (rows.head?.map List.length).getD 0
  if rows.any (·.length ≠ width) then
    throw (.general "all VALUES must have the same number of terms")
  match places with
  | some places =>
      let expected := places.length
      if expected ≠ width then
        throw (.general s!"{width} values for {expected} columns")
  | none =>
      let expected := table.columns.length
      if expected ≠ width then
        throw (.general
          s!"table {table.name} has {expected} columns but {width} values were supplied")
  let scope : Scope := ⟨none, [], 0⟩
  let add (table : Table) (row : List Expr) : Except String Table :=
    table.insertRow (arrange table places (row.map (Expr.eval scope)))
  let filled ← (rows.foldlM add table).mapError Refusal.general
  return { database with
    tables := database.tables.map fun other =>
      if sameName other.name table.name then filled else other }

/-- The columns that an output stands for: an expression, a name and a declared type each. -/
def expand (table : Option Table) : Output → Except Refusal (List (Expr × String × Option String))
  | .all =>
      match table with
      | none => .error (.general "no tables specified")
      | some table => .ok (table.columns.map fun column =>
          let lexeme : Lexeme := ⟨.name column.name, [], 0⟩
          (.column [lexeme], column.name, if column.type.isEmpty then none else some column.type))
  | .value expr caption text =>
      let source :=
        match expr with
        | .column path => do
            let place ← findColumn? table path
            (← table).columns[place]?
        | _ => none
      let name := caption.getD ((source.map TableColumn.name).getD text)
      let type := source.bind fun column =>
        if column.type.isEmpty then none else some column.type
      .ok [(expr, name, type)]

/-- Selects rows. -/
def select (database : Database) (sql : String) (outputs : List Output)
    (name : Option TableName) (conditions : List Condition) (order : List (Expr × Bool)) :
    Except Refusal Outcome := do
  let table ← name.mapM database.findTable
  let columns := (← outputs.mapM (expand table)).flatten
  for (expr, _) in columns do
    expr.check sql table
  for condition in conditions do
    condition.left.check sql table
    condition.right.check sql table
  let named (expr : Expr) : Expr :=
    match expr with
    | .column [lexeme] =>
        match columns.find? fun (_, name, _) => sameName name lexeme.name with
        | some (expr, _, _) => expr
        | none => expr
    | .literal (.int n) =>
        match columns[(n.toInt - 1).toNat]? with
        | some (expr, _, _) => expr
        | none => expr
    | _ => expr
  let order := order.map fun (expr, down) => (named expr, down)
  for (expr, _) in order do
    expr.check sql table
  let needed := ((columns.map (·.1)) ++ (conditions.flatMap fun c => [c.left, c.right]) ++
    order.map (·.1)).foldl (fun total expr => total + expr.parameters) 0
  if needed ≠ 0 then
    throw (.general s!"Wrong number of parameters passed to query. Got 0, needed {needed}")
  let scanned : List Row :=
    match table with
    | none => [[]]
    | some table => table.rows.values
  let kept := scanned.filter fun row =>
    conditions.all fun condition => condition.holds ⟨table, row, 0⟩
  let isBefore (first second : Row) : Bool :=
    (order.foldl (fun (settled : Option Bool) (expr, down) =>
      match settled with
      | some answer => some answer
      | none =>
          match compareValues (expr.eval ⟨table, first, 0⟩) (expr.eval ⟨table, second, 0⟩) with
          | .eq => none
          | .lt => some !down
          | .gt => some down) none).getD true
  let shown : List (String × Option String) := columns.map fun (_, name, type) => (name, type)
  if columns.any fun (expr, _) => expr.counts then
    let scope : Scope := ⟨table, kept.getLast?.getD [], kept.length⟩
    return ⟨shown, [columns.map fun (expr, _) => expr.eval scope]⟩
  let sorted := kept.mergeSort isBefore
  return ⟨shown, sorted.map fun row => columns.map fun (expr, _) => expr.eval ⟨table, row, 0⟩⟩

/-- Carries out the first statement of a text. -/
def run (database : Database) (sql : String) : Except Refusal (Outcome × Database) := do
  let nothing : Outcome := ⟨[], []⟩
  let noted (changed : Database) : Database :=
    { changed with statements := database.statements ++ [sql] }
  match ← parse sql with
  | none => throw (.general "not an error")
  | some (.select outputs table conditions order) =>
      return (← database.select sql outputs table conditions order, database)
  | some (.createTable ifMissing name columns keys) =>
      return (nothing, noted (← database.createTable sql ifMissing name columns keys))
  | some (.insert name columns rows) =>
      return (nothing, noted (← database.insertRows sql name columns rows))

/-- Carries out the first statement of a text; a statement that is refused changes nothing. -/
def execute (database : Database) (sql : String) : Except String (Outcome × Database) :=
  (database.run sql).mapError (Refusal.message sql)

/-- The names and declared types of a table's columns; of a table that is not there none. -/
def describe (database : Database) (schema : Option String) (table : String) :
    Except String (List (String × String)) :=
  let columns (table : Option Table) : List (String × String) :=
    match table with
    | some table => table.columns.map fun column => (column.name, column.type)
    | none => []
  match schema with
  | none => .ok (columns (database.table? table))
  | some schema =>
      if sameName schema "main" then .ok (columns (database.table? table))
      else if sameName schema "temp" then .ok []
      else
        let quoted := Text.quoteIdentifier schema
        let sql := s!"PRAGMA {quoted}.table_info({Text.quoteIdentifier table})"
        .error ((Refusal.at s!"unknown database {quoted}" 7).message sql)

/-- The database as it is kept in a file. -/
def encode (database : Database) : String :=
  (Json.arr (database.statements.map Json.str)).compact

/-- The database that a file holds; an empty file holds an empty one. -/
def decode (text : String) : Option Database :=
  if text.isEmpty then some default
  else
    match Json.parse text with
    | (.arr items, true) =>
        items.foldlM (fun database item =>
          match item with
          | .str sql =>
              match database.execute sql with
              | .ok (_, database) => some database
              | .error _ => none
          | _ => none) default
    | _ => none

end Database

end Embedded

end MetricCatalog
