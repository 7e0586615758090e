/-
# Paths

A path is a text whose parts are separated by slashes. Repeated slashes and inner
single points mean nothing, a double point stands for the parent and stays as it
is. Two paths are compared part by part.
-/

import MetricCatalog.KeyMap

namespace MetricCatalog

/-- A part of a path. -/
inductive PathPart
  /-- The root, in front of an absolute path. -/
  | root
  /-- The single point, in front of a relative path. -/
  | current
  /-- The double point. -/
  | parent
  | name (text : String)
  deriving DecidableEq, Repr

namespace PathPart

/-- The rank of the kinds of parts when paths are ordered. -/
def rank : PathPart → Nat
  | root => 0
  | current => 1
  | parent => 2
  | name _ => 3

/-- Whether a part stands before another one. -/
def isBefore (first second : PathPart) : Bool :=
  match first, second with
  | name left, name right => decide (left < right)
  | _, _ => first.rank < second.rank

/-- The part as it is written. -/
def text : PathPart → String
  | root => ""
  | current => "."
  | parent => ".."
  | name text => text

end PathPart

/-- A path as it is written. -/
structure Path where
  /-- The text of the path. -/
  text : String
  deriving DecidableEq, Repr, Inhabited

namespace Path

instance : ToString Path := ⟨text⟩

/-- The pieces of a text between slashes. -/
def splitSlashes : List Char → List (List Char)
  | [] => [[]]
  | c :: rest =>
      if c = '/' then [] :: splitSlashes rest
      else
        match splitSlashes rest with
        | [] => [[c]]
        | first :: others => (c :: first) :: others

/-- The pieces of the path between slashes. -/
def segments (path : Path) : List (List Char) := splitSlashes path.text.toList

/-- Whether the path starts at the root. -/
def isAbsolute (path : Path) : Bool := path.text.toList.head? = some '/'

/-- The part a piece stands for, if it is not in front. -/
def innerPart? (segment : List Char) : Option PathPart :=
  if segment = [] || segment = ['.'] then none
  else if segment = ['.', '.'] then some .parent
  else some (.name (String.ofList segment))

/-- The parts of the path. -/
def parts (path : Path) : List PathPart :=
  let segments := path.segments
  let inner := segments.filterMap innerPart?
  match segments with
  | ['.'] :: _ => .current :: inner
  | [] :: _ :: _ => .root :: inner
  | _ => inner

/-- The path with another one behind it; an absolute path stands for itself. -/
def join (base other : Path) : Path :=
  if other.isAbsolute then other
  else if base.text.isEmpty || base.text.toList.getLast? = some '/' then ⟨base.text ++ other.text⟩
  else ⟨base.text ++ "/" ++ other.text⟩

/-- The name at the end of the path, if it ends with a name. -/
def fileName? (path : Path) : Option String :=
  match path.parts.getLast? with
  | some (.name text) => some text
  | _ => none

/-- Pieces without those at the end that mean nothing. The piece in front always counts. -/
def dropIdle (segments : List (List Char)) : List (List Char) :=
  match segments with
  | [] => []
  | first :: rest =>
      first :: (rest.reverse.dropWhile fun segment => segment = [] || segment = ['.']).reverse

/-- The text of pieces. -/
def joinSegments : List (List Char) → List Char
  | [] => []
  | [segment] => segment
  | segment :: rest => segment ++ '/' :: joinSegments rest

/-- The path without its last part; the root and the empty path have none to take away. -/
def parent? (path : Path) : Option Path :=
  match path.parts.getLast? with
  | none | some .root => none
  | some _ =>
      let shorter := dropIdle (dropIdle path.segments).dropLast
      let text := joinSegments shorter
      some ⟨String.ofList (if path.isAbsolute && text.isEmpty then ['/'] else text)⟩

/-- The path with another name at its end. -/
def withFileName (path : Path) (name : String) : Path :=
  if path.fileName?.isSome then (path.parent?.getD path).join ⟨name⟩ else path.join ⟨name⟩

/-- The parts behind those of a base, if the path starts with them. -/
def stripBase : List PathPart → List PathPart → Option (List PathPart)
  | [], parts => some parts
  | _ :: _, [] => none
  | first :: base, part :: parts => if first = part then stripBase base parts else none

/-- A name without its extension: what stands before its last point, if that is not its first
character. -/
def stem (name : List Char) : List Char :=
  match name.reverse.dropWhile (· ≠ '.') with
  | [] | [_] => name
  | _ :: before => before.reverse

/-- Whether a list of parts stands before another one. -/
def partsBefore : List PathPart → List PathPart → Bool
  | [], [] => false
  | [], _ :: _ => true
  | _ :: _, [] => false
  | first :: left, second :: right =>
      first.isBefore second || (first = second && partsBefore left right)

/-- Whether a path stands before another one or at the same place. -/
def le (first second : Path) : Bool := !partsBefore second.parts first.parts

end Path

end MetricCatalog
