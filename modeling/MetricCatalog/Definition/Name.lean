/-
# Names of definitions

A definition has the name of its file, seen from the directory of its kind: the
extension is dropped and the parts are joined by points. Points and percent
signs inside a part are encoded, so that a name leads back to its parts.
-/

import MetricCatalog.Files.Path

namespace MetricCatalog

/-- What a definition defines. -/
inductive DefinitionKind
  | database | node
  deriving DecidableEq, Repr

/-- The directory that holds the definitions of a kind. -/
def DefinitionKind.directory : DefinitionKind → String
  | database => "databases"
  | node => "nodes"

/-- Why a path gives no name. -/
inductive NameFault
  /-- The path does not lead into the repository. -/
  | outside
  /-- The path does not lead into a directory of definitions. -/
  | noKind
  /-- A part of the path is no name. -/
  | badPart
  /-- Nothing stands behind the directory. -/
  | noName
  deriving DecidableEq, Repr

/-- The text of the complaint. -/
def NameFault.message : NameFault → String
  | outside => "not inside the repository"
  | noKind => "expected a path under 'databases/' or 'nodes/'"
  | badPart => "unexpected path component"
  | noName => "missing file name"

namespace DefinitionName

/-- A character of a part as it stands in a name. -/
def encodeChar (c : Char) : List Char :=
  if c = '%' then ['%', '2', '5'] else if c = '.' then ['%', '2', 'E'] else [c]

/-- A part as it stands in a name. -/
def encodePart (part : List Char) : List Char := part.flatMap encodeChar

/-- Parts joined by points. -/
def joinParts : List (List Char) → List Char
  | [] => []
  | [part] => part
  | part :: rest => part ++ '.' :: joinParts rest

/-- The name that parts make. -/
def encode (parts : List (List Char)) : List Char := joinParts (parts.map encodePart)

/-- The names among parts, if all of them are names. -/
def namesOf : List PathPart → Option (List (List Char))
  | [] => some []
  | .name text :: rest => (namesOf rest).map (text.toList :: ·)
  | _ :: _ => none

/-- The last name without its extension. What remains may mean a directory and not a name. -/
def dropExtension (names : List (List Char)) : Option (List (List Char)) :=
  match names.getLast? with
  | none => some []
  | some last =>
      let stem := Path.stem last
      if stem = ['.'] || stem = ['.', '.'] then none else some (names.dropLast ++ [stem])

/-- The name of the definition at a path in a repository. -/
def ofPath (root path : Path) : Except NameFault String :=
  match Path.stripBase root.parts path.parts with
  | none => .error .outside
  | some (.name directory :: rest) =>
      if directory = "databases" || directory = "nodes" then
        match (namesOf rest).bind dropExtension with
        | none => .error .badPart
        | some [] => .error .noName
        | some parts => .ok (String.ofList (encode parts))
      else .error .noKind
  | some _ => .error .noKind

end DefinitionName

end MetricCatalog
