/-
# Names and constants as tokens

A name in quotes is one token and so is a constant, whatever stands in them; only
the minus of a number is a token of its own. None of them is a semicolon, and none
ends with white space.
-/

import MetricCatalog.Proofs.Sql.Scan
import MetricCatalog.Proofs.Text.Blank
import MetricCatalog.Proofs.Text.Digits
import MetricCatalog.Query.Literal

namespace MetricCatalog

open Sql Text

/-! ## The pieces -/

/-- The token of a name. -/
def identifierPiece (name : String) : Piece := ⟨.other, quoted '"' name.toList⟩

/-- The token of a word or a sign. -/
def plainPiece (text : String) : Piece := ⟨.other, text.toList⟩

/-- The token of a space. -/
def gap : Piece := ⟨.space, [' ']⟩

/-- The tokens of a number: its minus is one of its own. -/
def Numeral.pieces (n : Numeral) : List Piece :=
  (if n.negative then [plainPiece "-"] else []) ++ [⟨.other, n.body⟩]

/-- The tokens of a constant. -/
def Literal.pieces : Literal → List Piece
  | int value => (Numeral.ofInt value.toInt).pieces
  | float value => (Layout.sql.numeral value).pieces
  | str value => [⟨.other, quoted '\'' value.toList⟩]
  | bool true => [plainPiece "TRUE"]
  | bool false => [plainPiece "FALSE"]

@[simp] theorem kind_identifierPiece (name : String) : (identifierPiece name).kind = .other := rfl

@[simp] theorem kind_plainPiece (text : String) : (plainPiece text).kind = .other := rfl

@[simp] theorem kind_gap : gap.kind = .space := rfl

theorem kind_numeral (n : Numeral) : ∀ piece ∈ n.pieces, piece.kind ≠ .semicolon := by
  cases hnegative : n.negative <;> simp [Numeral.pieces, hnegative]

theorem kind_literal (literal : Literal) : ∀ piece ∈ literal.pieces, piece.kind ≠ .semicolon := by
  cases literal with
  | int value => exact kind_numeral _
  | float value => exact kind_numeral _
  | str value => simp [Literal.pieces]
  | bool value => cases value <;> simp [Literal.pieces]

/-! ## Cutting them -/

section

variable {pieces : List Piece} {rest : List Char}

theorem cuts_char {kind : TokenKind} {c : Char} (hscan : scanToken c rest = .ok (kind, 1))
    (hrest : Cuts pieces rest) : Cuts (⟨kind, [c]⟩ :: pieces) (c :: rest) := by
  rw [← List.nil_append rest] at hscan ⊢
  exact .cons hscan hrest

theorem cuts_two {kind : TokenKind} {c d : Char} (hscan : scanToken c (d :: rest) = .ok (kind, 2))
    (hrest : Cuts pieces rest) : Cuts (⟨kind, [c, d]⟩ :: pieces) (c :: d :: rest) := by
  rw [← List.singleton_append] at hscan ⊢
  exact .cons hscan hrest

theorem cuts_gap (hrest : Cuts pieces rest) : Cuts (gap :: pieces) (' ' :: rest) :=
  cuts_char rfl hrest

theorem cuts_word (c : Char) (body : List Char)
    (hword : ∀ text, scanToken c text = .ok (.other, 1 + runLength isWordPart text))
    (hbody : body.all isWordPart = true) (hbreak : IsBreak rest)
    (hrest : Cuts pieces rest) : Cuts (⟨.other, c :: body⟩ :: pieces) (c :: (body ++ rest)) := by
  refine .cons ?_ hrest
  rw [hword, runLength_word (List.all_eq_true.mp hbody) hbreak, Nat.add_comm]

theorem cuts_identifier (name : String) (hnext : rest.head? ≠ some '"')
    (hrest : Cuts pieces rest) :
    Cuts (identifierPiece name :: pieces) (quoted '"' name.toList ++ rest) :=
  .cons (scanToken_identifier name.toList hnext) hrest

theorem cuts_numeral {n : Numeral} (hn : n.WellFormed) (hbreak : IsBreak rest)
    (hrest : Cuts pieces rest) : Cuts (n.pieces ++ pieces) (n.text ++ rest) := by
  obtain ⟨c, whole, hwhole⟩ := List.exists_cons_of_ne_nil hn.whole_ne_nil
  have hdigit : isDigit c = true := hn.whole c (hwhole ▸ List.mem_cons_self)
  obtain ⟨more, hmore⟩ : ∃ more, n.body = c :: more := ⟨_, by rw [Numeral.body, hwhole]; rfl⟩
  have hlength := numberLength_body hn hbreak
  have hbody : Cuts (⟨.other, n.body⟩ :: pieces) (n.body ++ rest) := by
    rw [hmore] at hlength ⊢
    refine .cons ?_ hrest
    rw [scanToken_digit hdigit, ← List.cons_append, hlength, List.length_cons]
  rw [Numeral.text_eq, Numeral.pieces]
  cases n.negative with
  | false => exact hbody
  | true =>
      refine cuts_char ?_ hbody
      rw [hmore]
      exact scanToken_minus hdigit _

theorem toList_toString (n : Int) : (toString n).toList = (Numeral.ofInt n).text := by
  have hnat : ∀ m : Nat, (toString m).toList = decimalDigits m := fun m => by
    rw [Nat.toString_eq_repr, Nat.repr_eq_ofList_toDigits, String.toList_ofList]
    rfl
  cases n with
  | ofNat m =>
      show (toString m).toList = _
      rw [hnat]
      simp [Numeral.ofInt, Numeral.text]
  | negSucc m =>
      show ("-" ++ toString (m + 1)).toList = _
      rw [String.toList_append, hnat]
      simp [Numeral.ofInt, Numeral.text, Int.negSucc_lt_zero]

theorem cuts_literal (literal : Literal) (hbreak : IsBreak rest) (hrest : Cuts pieces rest) :
    Cuts (literal.pieces ++ pieces) (literal.sql.toList ++ rest) := by
  cases literal with
  | int value =>
      rw [Literal.sql, toList_toString]
      exact cuts_numeral (Numeral.wellFormed_ofInt _) hbreak hrest
  | float value =>
      rw [Literal.sql, Layout.format, String.toList_ofList]
      exact cuts_numeral (Layout.wellFormed_numeral (Or.inl rfl) value) hbreak hrest
  | str value =>
      rw [Literal.sql, quoteString, String.toList_ofList]
      exact .cons (scanToken_string value.toList (hbreak.head?_ne (by decide))) hrest
  | bool value =>
      cases value with
      | true => exact cuts_word 'T' ['R', 'U', 'E'] (fun _ => rfl) rfl hbreak hrest
      | false => exact cuts_word 'F' ['A', 'L', 'S', 'E'] (fun _ => rfl) rfl hbreak hrest

end

/-! ## Nothing to trim -/

theorem endsSolid_quoted (quote : Char) (hquote : isBlank quote = false) (text : List Char) :
    EndsSolid (quoted quote text) := ⟨_, quote, rfl, hquote⟩

theorem endsSolid_numeral {n : Numeral} (hn : n.WellFormed) : EndsSolid n.text := by
  have hpointed : ∀ c ∈ pointed n.fraction, isBlank c = false := by
    intro c hc
    unfold pointed at hc
    split at hc
    · cases hc
    · rcases List.mem_cons.mp hc with rfl | hfraction
      · rfl
      · exact isBlank_of_isDigit (hn.fraction c hfraction)
  have hscaled : ∀ c ∈ scaled n.scale, isBlank c = false := by
    intro c hc
    cases hscale : n.scale with
    | none =>
        rw [hscale] at hc
        cases hc
    | some scale =>
        rw [hscale] at hc
        rcases List.mem_cons.mp hc with rfl | hbehind
        · rfl
        · rcases List.mem_append.mp hbehind with hsign | hdigit
          · rcases hn.scale_sign scale hscale with hnone | hplus | hminus
            · rw [hnone] at hsign
              cases hsign
            · rw [hplus] at hsign
              cases List.mem_singleton.mp hsign
              rfl
            · rw [hminus] at hsign
              cases List.mem_singleton.mp hsign
              rfl
          · exact isBlank_of_isDigit (hn.scale scale hscale c hdigit)
  rw [Numeral.text_eq]
  refine EndsSolid.append_left (endsSolid_of_forall ?_ fun c hc => ?_) _
  · exact fun hnil => hn.whole_ne_nil (List.append_eq_nil_iff.mp hnil).1
  · rcases List.mem_append.mp hc with hwhole | hbehind
    · exact isBlank_of_isDigit (hn.whole c hwhole)
    · rcases List.mem_append.mp hbehind with hfraction | hscale
      · exact hpointed c hfraction
      · exact hscaled c hscale

theorem endsSolid_literal (literal : Literal) : EndsSolid literal.sql.toList := by
  cases literal with
  | int value =>
      rw [Literal.sql, toList_toString]
      exact endsSolid_numeral (Numeral.wellFormed_ofInt _)
  | float value =>
      rw [Literal.sql, Layout.format, String.toList_ofList]
      exact endsSolid_numeral (Layout.wellFormed_numeral (Or.inl rfl) value)
  | str value =>
      rw [Literal.sql, quoteString, String.toList_ofList]
      exact endsSolid_quoted _ rfl _
  | bool value =>
      cases value with
      | true => exact ⟨['T', 'R', 'U'], 'E', rfl, rfl⟩
      | false => exact ⟨['F', 'A', 'L', 'S'], 'E', rfl, rfl⟩

end MetricCatalog
