/-
# A node query says what its filters said

The pieces of a query can be told from its text, since the lexer cuts the text
in one way only. From the pieces the table, the columns, the operators and the
constants can be told in turn: what stands between quotes is doubled there in
one way only, and the digits of an integer, the quotes of a string and the
letters of a truth value start differently. Two queries with one text were made
from the same table under the same conditions, in the same order.

Of two floats it is only said that they are written the same.
-/

import MetricCatalog.Proofs.Json.Number
import MetricCatalog.Proofs.Query.Statement

namespace MetricCatalog

open Sql Text

/-! ## Doubling quotes -/

namespace Text

/-- What was doubled can be told from the result. -/
theorem doubled_injective (quote : Char) : Function.Injective (doubled quote) := by
  intro first second heq
  induction first generalizing second with
  | nil =>
      cases second with
      | nil => rfl
      | cons d more =>
          rw [doubled_nil, doubled] at heq
          split at heq <;> cases heq
  | cons c rest ih =>
      cases second with
      | nil =>
          rw [doubled_nil, doubled] at heq
          split at heq <;> cases heq
      | cons d more =>
          rw [doubled, doubled] at heq
          split at heq <;> split at heq <;> simp only [List.cons.injEq] at heq
          · rename_i hc hd
            rw [hc, hd, ih heq.2.2]
          · rename_i hd
            exact absurd heq.1.symm hd
          · rename_i hc _
            exact absurd heq.1 hc
          · rw [heq.1, ih heq.2]

theorem quoted_injective (quote : Char) : Function.Injective (quoted quote) := by
  intro first second heq
  exact doubled_injective quote (List.append_cancel_right (List.cons.inj heq).2)

end Text

/-! ## The written forms of constants -/

theorem decimalDigits_injective : Function.Injective decimalDigits := by
  intro first second heq
  rw [← decimalValue_decimalDigits first, heq, decimalValue_decimalDigits]

namespace Numeral

theorem ofInt_injective : Function.Injective ofInt := by
  intro first second heq
  obtain ⟨hnegative, hdigits, -, -⟩ := Numeral.mk.inj heq
  have habs := decimalDigits_injective hdigits
  have hsign := decide_eq_decide.mp hnegative
  omega

variable {n : Numeral}

/-- A numeral can be told from its text. -/
theorem IsPlain.eq_of_text {m : Numeral} (hn : n.IsPlain) (hm : m.IsPlain)
    (htext : n.text = m.text) : n = m := by
  have hends : Json.EndsNumber [] := nofun
  have hread := Json.parseNumeral?_text hn hends
  rw [htext, Json.parseNumeral?_text hm hends] at hread
  exact (Prod.mk.inj (Option.some.inj hread)).1.symm

/-- A numeral starts with its minus or with a digit. -/
theorem WellFormed.text_ne (hn : n.WellFormed) {c : Char} (hminus : c ≠ '-')
    (hdigit : isDigit c = false) (rest : List Char) : n.text ≠ c :: rest := by
  obtain ⟨first, whole, hwhole⟩ := List.exists_cons_of_ne_nil hn.whole_ne_nil
  have hfirst : isDigit first = true := hn.whole first (hwhole ▸ List.mem_cons_self)
  rw [text_eq, body, hwhole]
  rintro heq
  cases hnegative : n.negative
  · rw [hnegative] at heq
    rw [(List.cons.inj heq).1, hdigit] at hfirst
    cases hfirst
  · rw [hnegative] at heq
    exact hminus (List.cons.inj heq).1.symm

end Numeral

namespace Literal

/-- The numeral that a number is written as. -/
def numeral? : Literal → Option Numeral
  | int value => some (.ofInt value.toInt)
  | float value => some (Layout.sql.numeral value)
  | str _ | bool _ => none

theorem toList_str (value : String) : (str value).sql.toList = quoted '\'' value.toList := by
  rw [sql, quoteString, String.toList_ofList]

theorem toList_number {literal : Literal} {n : Numeral} (hnumeral : literal.numeral? = some n) :
    literal.sql.toList = n.text ∧ n.IsPlain := by
  cases literal with
  | int value =>
      cases hnumeral
      exact ⟨toList_toString _, Numeral.isPlain_ofInt _⟩
  | float value =>
      cases hnumeral
      refine ⟨?_, Layout.isPlain_numeral (Or.inl rfl) value⟩
      rw [sql, Layout.format, String.toList_ofList]
  | str _ | bool _ => cases hnumeral

/-- What is no number starts with a quote or a letter. -/
theorem toList_word {literal : Literal} (hnumeral : literal.numeral? = none) :
    ∃ c rest, literal.sql.toList = c :: rest ∧ c ≠ '-' ∧ isDigit c = false := by
  cases literal with
  | int _ | float _ => cases hnumeral
  | str value => exact ⟨'\'', _, toList_str value, by decide⟩
  | bool value =>
      cases value
      · exact ⟨'F', _, rfl, by decide⟩
      · exact ⟨'T', _, rfl, by decide⟩

/-- Constants that are written the same are the same number or both none. -/
theorem numeral?_eq_of_sql {first second : Literal} (hsql : first.sql = second.sql) :
    first.numeral? = second.numeral? := by
  have hne {number word : Literal} {n : Numeral} (hnumber : number.numeral? = some n)
      (hword : word.numeral? = none) : number.sql ≠ word.sql := by
    obtain ⟨htext, hplain⟩ := toList_number hnumber
    obtain ⟨c, rest, hstart, hminus, hdigit⟩ := toList_word hword
    intro heq
    exact hplain.text_ne hminus hdigit rest (by rw [← htext, heq, hstart])
  cases hfirst : first.numeral? with
  | none =>
      cases hsecond : second.numeral? with
      | none => rfl
      | some m => exact absurd hsql.symm (hne hsecond hfirst)
  | some n =>
      cases hsecond : second.numeral? with
      | none => exact absurd hsql (hne hfirst hsecond)
      | some m =>
          obtain ⟨htext, hplain⟩ := toList_number hfirst
          obtain ⟨hother, hotherPlain⟩ := toList_number hsecond
          rw [hplain.eq_of_text hotherPlain (by rw [← htext, hsql, hother])]

/-- A constant that is no float can be told from its written form. -/
theorem eq_of_sql {first second : Literal} (hexact : ∀ value, first ≠ .float value)
    (hsql : first.sql = second.sql) : first = second := by
  have hnumeral := numeral?_eq_of_sql hsql
  cases first with
  | float value => exact absurd rfl (hexact value)
  | int value =>
      cases second with
      | int other =>
          have hvalue := Numeral.ofInt_injective (Option.some.inj hnumeral)
          rw [Int64.toInt_inj.mp hvalue]
      | float other =>
          have hwhole := Option.some.inj hnumeral
          rcases Layout.fraction_or_scale_numeral .sql other with hfraction | hscale
          · exact absurd (by rw [← hwhole]; rfl) hfraction
          · exact absurd (by rw [← hwhole]; rfl) hscale
      | str _ | bool _ => cases hnumeral
  | str value =>
      cases second with
      | int _ | float _ => cases hnumeral
      | str other =>
          have hquoted := congrArg String.toList hsql
          rw [toList_str, toList_str] at hquoted
          rw [String.toList_inj.mp (quoted_injective '\'' hquoted)]
      | bool other =>
          have hquoted := congrArg String.toList hsql
          rw [toList_str] at hquoted
          cases other <;> cases hquoted
  | bool value =>
      cases second with
      | int _ | float _ => cases hnumeral
      | str other =>
          have hquoted := congrArg String.toList hsql
          rw [toList_str] at hquoted
          cases value <;> cases hquoted
      | bool other =>
          revert hsql
          cases value <;> cases other <;> decide

end Literal

/-! ## Telling the pieces apart -/

theorem identifierPiece_injective : Function.Injective identifierPiece := by
  intro first second heq
  exact String.toList_inj.mp (quoted_injective '"' (Piece.mk.inj heq).2)

theorem sign_injective {first second : Operator}
    (heq : plainPiece first.sign = plainPiece second.sign) : first = second := by
  revert heq
  cases first <;> cases second <;> decide

namespace Literal

theorem flatMap_pieces (literal : Literal) :
    literal.pieces.flatMap (·.text) = literal.sql.toList := by
  have hcuts := (cuts_literal literal isBreak_nil .nil).flatMap_text
  rwa [List.append_nil, List.append_nil] at hcuts

/-- A constant is one piece, or one behind a minus. -/
theorem pieces_eq (literal : Literal) :
    ∃ piece, piece ≠ plainPiece "-" ∧
      (literal.pieces = [piece] ∨ literal.pieces = [plainPiece "-", piece]) := by
  have hnumber {n : Numeral} (hn : n.WellFormed) : ∃ piece, piece ≠ plainPiece "-" ∧
      (n.pieces = [piece] ∨ n.pieces = [plainPiece "-", piece]) := by
    refine ⟨⟨.other, n.body⟩, ?_, ?_⟩
    · obtain ⟨c, whole, hwhole⟩ := List.exists_cons_of_ne_nil hn.whole_ne_nil
      have hdigit : isDigit c = true := hn.whole c (hwhole ▸ List.mem_cons_self)
      intro hminus
      have hbody := (Piece.mk.inj hminus).2
      rw [Numeral.body, hwhole] at hbody
      rw [(List.cons.inj hbody).1] at hdigit
      revert hdigit
      decide
    · rw [Numeral.pieces]
      cases n.negative
      · exact Or.inl rfl
      · exact Or.inr rfl
  cases literal with
  | int value => exact hnumber (Numeral.wellFormed_ofInt _)
  | float value => exact hnumber (Layout.wellFormed_numeral (Or.inl rfl) value)
  | str value =>
      refine ⟨_, ?_, Or.inl rfl⟩
      intro hminus
      cases (Piece.mk.inj hminus).2
  | bool value => cases value <;> exact ⟨_, by decide, Or.inl rfl⟩

/-- Where a constant ends can be told from the pieces. -/
theorem pieces_append {first second : Literal} {left right : List Piece}
    (heq : first.pieces ++ left = second.pieces ++ right) :
    first.sql = second.sql ∧ left = right := by
  have hpieces : first.pieces = second.pieces ∧ left = right := by
    obtain ⟨piece, hpiece, hfirst⟩ := first.pieces_eq
    obtain ⟨other, hother, hsecond⟩ := second.pieces_eq
    rcases hfirst with hfirst | hfirst <;> rcases hsecond with hsecond | hsecond <;>
      rw [hfirst, hsecond] at heq ⊢ <;>
      simp only [List.cons_append, List.nil_append, List.cons.injEq, and_true, true_and] at heq ⊢
    · exact heq
    · exact absurd heq.1 hpiece
    · exact absurd heq.1.symm hother
    · exact heq
  refine ⟨String.toList_inj.mp ?_, hpieces.2⟩
  rw [← flatMap_pieces, hpieces.1, flatMap_pieces]

end Literal

/-- Two conditions say the same: floats are compared as they are written. -/
structure Predicate.SaysSame (first second : Predicate) : Prop where
  column : first.column = second.column
  op : first.op = second.op
  sql : first.literal.sql = second.literal.sql
  literal : (∀ value, first.literal ≠ .float value) → first.literal = second.literal

namespace NodeQuery

theorem linkedPieces_saysSame {word : String} {predicates others : List Predicate}
    (heq : linkedPieces word predicates = linkedPieces word others) :
    List.Forall₂ Predicate.SaysSame predicates others := by
  induction predicates generalizing word others with
  | nil =>
      cases others with
      | nil => exact .nil
      | cons other more => cases heq
  | cons predicate rest ih =>
      cases others with
      | nil => cases heq
      | cons other more =>
          simp only [linkedPieces, Predicate.pieces, List.cons_append, List.cons.injEq, true_and]
            at heq
          obtain ⟨hcolumn, hop, hrest⟩ := heq
          obtain ⟨hsql, hmore⟩ := Literal.pieces_append hrest
          exact .cons ⟨identifierPiece_injective hcolumn, sign_injective hop, hsql,
            fun hexact => Literal.eq_of_sql hexact hsql⟩ (ih hmore)

/-- What stands behind a table is no point. -/
theorem linkedPieces_ne (word : String) (predicates : List Predicate) (rest : List Piece) :
    linkedPieces word predicates ≠ plainPiece "." :: rest := by
  cases predicates with
  | nil => nofun
  | cons predicate others =>
      intro heq
      cases (List.cons.inj heq).1

theorem pieces_saysSame {representation other : Representation}
    {predicates others : List Predicate}
    (heq : pieces representation predicates = pieces other others) :
    representation.schema = other.schema ∧ representation.table = other.table ∧
      List.Forall₂ Predicate.SaysSame predicates others := by
  have htable := List.append_cancel_left heq
  unfold tablePieces at htable
  cases hschema : representation.schema <;> cases hother : other.schema <;>
    rw [hschema, hother] at htable <;>
    simp only [List.cons_append, List.nil_append, List.cons.injEq, true_and] at htable
  · exact ⟨rfl, identifierPiece_injective htable.1, linkedPieces_saysSame htable.2⟩
  · exact absurd htable.2 (linkedPieces_ne _ _ _)
  · exact absurd htable.2.symm (linkedPieces_ne _ _ _)
  · exact ⟨congrArg some (identifierPiece_injective htable.1),
      identifierPiece_injective htable.2.1, linkedPieces_saysSame htable.2.2⟩

theorem statement_saysSame {representation other : Representation}
    {predicates others : List Predicate}
    (heq : statement representation predicates = statement other others) :
    representation.schema = other.schema ∧ representation.table = other.table ∧
      List.Forall₂ Predicate.SaysSame predicates others := by
  have hcuts := cuts_statement representation predicates
  rw [heq] at hcuts
  exact pieces_saysSame (hcuts.unique (cuts_statement other others))

/-! ## The queries of nodes -/

/-- A node whose second table has the name of the awkward one. -/
def twinNode : Node :=
  ⟨.ofNat 2, "sales", none, none, [⟨"db", none, "sales"⟩, ⟨"copy", some "main", "a\";--b"⟩],
    [⟨"id", .int⟩, ⟨"name", .bytes⟩], ⟨0, 0⟩, ⟨0, 0⟩⟩

end NodeQuery

end MetricCatalog
