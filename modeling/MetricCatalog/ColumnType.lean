/-
# Column types

The portable types of columns, from the least specific to the most specific.
Databases may store one column as different types; the most specific
observation wins.
-/

namespace MetricCatalog

/-- A portable column type. -/
inductive ColumnType
  | bytes | str | float | int | decimal | bool
  | datetime | date | time | timedelta | list | dict
  deriving DecidableEq, Repr, Inhabited

namespace ColumnType

/-- Every type, the least specific first. -/
def all : List ColumnType :=
  [bytes, str, float, int, decimal, bool, datetime, date, time, timedelta, list, dict]

/-- The position in the order of specificity. -/
def rank : ColumnType → Nat
  | bytes => 0
  | str => 1
  | float => 2
  | int => 3
  | decimal => 4
  | bool => 5
  | datetime => 6
  | date => 7
  | time => 8
  | timedelta => 9
  | list => 10
  | dict => 11

/-- The name of the type. Only the decimal type has a capital letter. -/
def tag : ColumnType → String
  | bytes => "bytes"
  | str => "str"
  | float => "float"
  | int => "int"
  | decimal => "Decimal"
  | bool => "bool"
  | datetime => "datetime"
  | date => "date"
  | time => "time"
  | timedelta => "timedelta"
  | list => "list"
  | dict => "dict"

instance : ToString ColumnType := ⟨tag⟩

/-- A name that is not the name of a column type. -/
structure UnknownType where
  /-- The name as it was given. -/
  name : String
  deriving DecidableEq, Repr

/-- The text of the complaint. -/
def UnknownType.message (error : UnknownType) : String :=
  s!"Unknown column type: '{error.name}'"

/-- The type with the given name. -/
def ofTag? (name : String) : Option ColumnType := all.find? (·.tag == name)

/-- The type with the given name, or the complaint about it. -/
def parse (name : String) : Except UnknownType ColumnType :=
  match ofTag? name with
  | some type => .ok type
  | none => .error ⟨name⟩

/-- The more specific of an observation made before, if any, and a new one. -/
def mostSpecific (current : Option ColumnType) (candidate : ColumnType) : ColumnType :=
  match current with
  | none => candidate
  | some type => if candidate.rank < type.rank then type else candidate

theorem ofTag?_tag (type : ColumnType) : ofTag? type.tag = some type := by
  cases type <;> rfl

theorem rank_injective {first second : ColumnType} (hrank : first.rank = second.rank) :
    first = second := by
  cases first <;> cases second <;> first | rfl | cases hrank

end ColumnType

/-- The coarse kind of a native type, which is all that a cursor can tell. -/
inductive NativeTypeBucket
  | string | binary | number | datetime
  deriving DecidableEq, Repr

namespace NativeTypeBucket

/-- The column type that stands for the kind. -/
def columnType : NativeTypeBucket → ColumnType
  | string => .str
  | binary => .bytes
  | number => .float
  | datetime => .datetime

/-- The name of the kind. -/
def name : NativeTypeBucket → String
  | string => "String"
  | binary => "Binary"
  | number => "Number"
  | datetime => "Datetime"

end NativeTypeBucket

/-- The column type for a kind; what no kind fits is a string. -/
def ColumnType.ofBucket (bucket : Option NativeTypeBucket) : ColumnType :=
  match bucket with
  | none => .str
  | some bucket => bucket.columnType

end MetricCatalog
