/-
# A node query is one statement

The names and constants of a query may hold quotes, semicolons, line feeds and
openings of comments. The lexer takes each of them for one token all the same,
and the words, signs and spaces around them for tokens of their own. So whatever
stands in a node and in its filters, the query is cut as it was put together, and
nothing of it is split off.
-/

import MetricCatalog.Proofs.Query.Literal
import MetricCatalog.Query.NodeQuery

namespace MetricCatalog

open Sql Text

/-! ## The pieces of a query -/

/-- The tokens of a condition. -/
def Predicate.pieces (predicate : Predicate) : List Piece :=
  identifierPiece predicate.column :: gap :: plainPiece predicate.op.sign :: gap ::
    predicate.literal.pieces

namespace NodeQuery

/-- The tokens of a table. -/
def tablePieces (representation : Representation) : List Piece :=
  match representation.schema with
  | some schema =>
      [identifierPiece schema, plainPiece ".", identifierPiece representation.table]
  | none => [identifierPiece representation.table]

/-- The tokens of conditions, each behind a word. -/
def linkedPieces (word : String) : List Predicate → List Piece
  | [] => []
  | predicate :: rest =>
      gap :: plainPiece word :: gap :: (predicate.pieces ++ linkedPieces "AND" rest)

/-- The tokens of a query. -/
def pieces (representation : Representation) (predicates : List Predicate) : List Piece :=
  [plainPiece "SELECT", gap, plainPiece "*", gap, plainPiece "FROM", gap] ++
    (tablePieces representation ++ linkedPieces "WHERE" predicates)

end NodeQuery

/-! ## No semicolon among them -/

namespace NodeQuery

theorem kind_linked (word : String) (predicates : List Predicate) :
    ∀ piece ∈ linkedPieces word predicates, piece.kind ≠ .semicolon := by
  induction predicates generalizing word with
  | nil => simp [linkedPieces]
  | cons predicate rest ih =>
      have hliteral := kind_literal predicate.literal
      simp only [linkedPieces, Predicate.pieces, List.cons_append, List.forall_mem_cons,
        List.forall_mem_append]
      simpa using ⟨hliteral, ih "AND"⟩

theorem kind_pieces (representation : Representation) (predicates : List Predicate) :
    ∀ piece ∈ pieces representation predicates, piece.kind ≠ .semicolon := by
  have hlinked := kind_linked "WHERE" predicates
  rw [pieces, List.forall_mem_append, List.forall_mem_append]
  refine ⟨by simp, ?_, hlinked⟩
  unfold tablePieces
  cases representation.schema <;> simp

end NodeQuery

/-! ## Cutting them -/

section

variable {pieces : List Piece} {rest : List Char}

theorem cuts_sign (op : Operator) (hrest : Cuts pieces (' ' :: rest)) :
    Cuts (plainPiece op.sign :: pieces) (op.sign.toList ++ ' ' :: rest) := by
  cases op with
  | eq => exact cuts_char rfl hrest
  | notEq => exact cuts_two rfl hrest
  | lt => exact cuts_char rfl hrest
  | ltEq => exact cuts_two rfl hrest
  | gt => exact cuts_char rfl hrest
  | gtEq => exact cuts_two rfl hrest

theorem toList_predicate (predicate : Predicate) :
    predicate.sql.toList = quoted '"' predicate.column.toList ++
      ' ' :: (predicate.op.sign.toList ++ ' ' :: predicate.literal.sql.toList) := by
  simp [Predicate.sql, quoteIdentifier, toString]

theorem cuts_predicate (predicate : Predicate) (hbreak : IsBreak rest)
    (hrest : Cuts pieces rest) :
    Cuts (predicate.pieces ++ pieces) (predicate.sql.toList ++ rest) := by
  have hliteral := cuts_literal predicate.literal hbreak hrest
  have hcolumn := cuts_identifier predicate.column ((isBreak_space _).head?_ne (by decide))
    (cuts_gap (cuts_sign predicate.op (cuts_gap hliteral)))
  rw [toList_predicate]
  simpa [Predicate.pieces] using hcolumn

end

namespace NodeQuery

/-- Conditions, each behind a word. -/
def linked (word : String) : List Predicate → List Char
  | [] => []
  | predicate :: rest =>
      ' ' :: (word.toList ++ ' ' :: (predicate.sql.toList ++ linked "AND" rest))

theorem isBreak_linked (word : String) (predicates : List Predicate) :
    IsBreak (linked word predicates) := by
  cases predicates with
  | nil => exact isBreak_nil
  | cons predicate rest => exact isBreak_space _

theorem toList_conditions (predicates : List Predicate) :
    (conditions predicates).toList = linked "WHERE" predicates := by
  cases predicates with
  | nil => rfl
  | cons first others =>
      have hjoined : (" AND ".intercalate ((first :: others).map Predicate.sql)).toList =
          first.sql.toList ++ linked "AND" others := by
        induction others generalizing first with
        | nil => simp [linked]
        | cons second rest ih =>
            rw [List.map_cons, List.map_cons, String.intercalate_cons_cons, ← List.map_cons,
              String.toList_append, String.toList_append, ih]
            simp [linked]
      show (" WHERE " ++ " AND ".intercalate ((first :: others).map Predicate.sql)).toList = _
      rw [String.toList_append, hjoined]
      simp [linked]

theorem cuts_linked (word : String)
    (hword : ∀ {pieces rest}, IsBreak rest → Cuts pieces rest →
      Cuts (plainPiece word :: pieces) (word.toList ++ rest)) (predicates : List Predicate) :
    Cuts (linkedPieces word predicates) (linked word predicates) := by
  induction predicates generalizing word with
  | nil => exact .nil
  | cons predicate rest ih =>
      have hrest : Cuts (linkedPieces "AND" rest) (linked "AND" rest) :=
        ih "AND" fun hbreak hcuts => cuts_word 'A' ['N', 'D'] (fun _ => rfl) rfl hbreak hcuts
      have hpredicate := cuts_predicate predicate (isBreak_linked "AND" rest) hrest
      exact cuts_gap (hword (isBreak_space _) (cuts_gap hpredicate))

theorem cuts_table (representation : Representation) {pieces : List Piece} {rest : List Char}
    (hbreak : IsBreak rest) (hrest : Cuts pieces rest) :
    Cuts (tablePieces representation ++ pieces) ((tableName representation).toList ++ rest) := by
  have htable := cuts_identifier representation.table (hbreak.head?_ne (by decide)) hrest
  unfold tablePieces tableName
  cases representation.schema with
  | none =>
      rw [quoteIdentifier, String.toList_ofList]
      exact htable
  | some schema =>
      have hpoint : Cuts (plainPiece "." :: identifierPiece representation.table :: pieces)
          ('.' :: (quoted '"' representation.table.toList ++ rest)) := cuts_char rfl htable
      have hschema := cuts_identifier schema (by simp) hpoint
      simpa [quoteIdentifier, toString] using hschema

/-- The text of a query. -/
def statement (representation : Representation) (predicates : List Predicate) : String :=
  s!"SELECT * FROM {tableName representation}{conditions predicates}"

theorem toList_statement (representation : Representation) (predicates : List Predicate) :
    (statement representation predicates).toList =
      "SELECT * FROM ".toList ++
        ((tableName representation).toList ++ linked "WHERE" predicates) := by
  simp [statement, toString, toList_conditions]

theorem cuts_statement (representation : Representation) (predicates : List Predicate) :
    Cuts (NodeQuery.pieces representation predicates)
      (statement representation predicates).toList := by
  have hlinked : Cuts (linkedPieces "WHERE" predicates) (linked "WHERE" predicates) :=
    cuts_linked "WHERE" (fun hbreak hcuts =>
      cuts_word 'W' ['H', 'E', 'R', 'E'] (fun _ => rfl) rfl hbreak hcuts) predicates
  have htable := cuts_table representation (isBreak_linked _ _) hlinked
  have hfrom := cuts_word 'F' ['R', 'O', 'M'] (fun _ => rfl) rfl (isBreak_space _)
    (cuts_gap htable)
  have hstar := cuts_char (c := '*') rfl (cuts_gap hfrom)
  rw [toList_statement]
  exact cuts_word 'S' ['E', 'L', 'E', 'C', 'T'] (fun _ => rfl) rfl (isBreak_space _)
    (cuts_gap hstar)

end NodeQuery

/-! ## Nothing to trim -/

theorem endsSolid_predicate (predicate : Predicate) : EndsSolid predicate.sql.toList := by
  rw [toList_predicate]
  exact (((endsSolid_literal _).cons ' ').append_left _ |>.cons ' ').append_left _

namespace NodeQuery

theorem endsSolid_linked (word : String) (first : Predicate) (others : List Predicate) :
    EndsSolid (linked word (first :: others)) := by
  induction others generalizing word first with
  | nil =>
      refine ((EndsSolid.cons ?_ ' ').append_left _).cons ' '
      rw [linked, List.append_nil]
      exact endsSolid_predicate first
  | cons second rest ih =>
      exact (((ih "AND" second).append_left _ |>.cons ' ').append_left _).cons ' '

theorem endsSolid_table (representation : Representation) :
    EndsSolid (tableName representation).toList := by
  have htable := endsSolid_quoted '"' rfl representation.table.toList
  unfold tableName
  cases representation.schema with
  | none =>
      rw [quoteIdentifier, String.toList_ofList]
      exact htable
  | some schema =>
      have hschema := (htable.cons '.').append_left (quoted '"' schema.toList)
      simpa [quoteIdentifier, toString] using hschema

theorem trim_statement (representation : Representation) (predicates : List Predicate) :
    trim (statement representation predicates).toList =
      (statement representation predicates).toList := by
  rw [toList_statement]
  refine EndsSolid.trim_cons (EndsSolid.append_left ?_ "SELECT * FROM ".toList) rfl
  cases predicates with
  | nil =>
      rw [linked, List.append_nil]
      exact endsSolid_table representation
  | cons first others => exact (endsSolid_linked "WHERE" first others).append_left _

/-! ## The query of a node -/

/-- What a query is made from: the representation that was chosen, and the filters as they were
bound. -/
structure MadeFrom (node : Node) (database : Option String) (filters : List String)
    (representation : Representation) (predicates : List Predicate) : Prop where
  representation : representationFor node database = .ok representation
  predicates : compileFilters (node.columns.map fun column => (column.name, column.type))
    filters = .ok predicates

theorem exists_madeFrom {node : Node} {database : Option String} {filters : List String}
    {query : NodeQuery} (hbuild : build node database filters = .ok query) :
    ∃ representation predicates, MadeFrom node database filters representation predicates ∧
      query = ⟨representation.database, statement representation predicates⟩ := by
  unfold build at hbuild
  cases hrepresentation : representationFor node database with
  | error error =>
      rw [hrepresentation] at hbuild
      cases hbuild
  | ok representation =>
      rw [hrepresentation] at hbuild
      cases hfilters : compileFilters
          (node.columns.map fun column => (column.name, column.type)) filters with
      | error error =>
          simp only [bind, Except.bind, hfilters] at hbuild
          cases hbuild
      | ok predicates =>
          simp only [bind, Except.bind, hfilters] at hbuild
          cases hbuild
          exact ⟨representation, predicates, ⟨hrepresentation, hfilters⟩, rfl⟩

theorem exists_statement_of_build {node : Node} {database : Option String} {filters : List String}
    {query : NodeQuery} (hbuild : build node database filters = .ok query) :
    ∃ representation predicates, query.sql = statement representation predicates := by
  obtain ⟨representation, predicates, -, rfl⟩ := exists_madeFrom hbuild
  exact ⟨representation, predicates, rfl⟩

/-- Whatever the names and constants in it, the query of a node is a single statement, and
splitting gives the whole of it. -/
theorem splitStatements_build {node : Node} {database : Option String} {filters : List String}
    {query : NodeQuery} (hbuild : build node database filters = .ok query) :
    splitStatements query.sql = .ok [query.sql] := by
  obtain ⟨representation, predicates, hsql⟩ := exists_statement_of_build hbuild
  have hsplit := (cuts_statement representation predicates).splitText_eq (kind_pieces _ _)
    ⟨plainPiece "SELECT", List.mem_cons_self, by decide⟩
  rw [hsql, splitStatements, hsplit, trim_statement]
  simp [Except.map]

/-- Orders whose table has a quote, a semicolon and a comment in its name. -/
def awkwardNode : Node :=
  ⟨.ofNat 1, "orders", none, none, [⟨"db", some "main", "a\";--b"⟩], [⟨"name", .str⟩],
    ⟨0, 0⟩, ⟨0, 0⟩⟩

/-- The query for those of a name with the same signs in it. -/
def awkwardQuery : NodeQuery :=
  ⟨"db", "SELECT * FROM \"main\".\"a\"\";--b\" WHERE \"name\" = 'it''s;/*'"⟩

theorem splitStatements_build_awkwardNode :
    build awkwardNode none ["name='it\\'s;/*'"] = .ok awkwardQuery ∧
    splitStatements awkwardQuery.sql = .ok [awkwardQuery.sql] := by
  have hbuild : build awkwardNode none ["name='it\\'s;/*'"] = .ok awkwardQuery := rfl
  exact ⟨hbuild, splitStatements_build hbuild⟩

end NodeQuery

end MetricCatalog
