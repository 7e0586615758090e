/-
# Cutting a text into tokens

The lexer takes one token after the other, each from the text that the ones
before have left. `Cuts` says this without places and without faults, so that
what is read off a text can be put together token by token. A text whose tokens
are no semicolons is a single statement.
-/

import MetricCatalog.Proofs.Text.Location
import MetricCatalog.Sql.Split

namespace MetricCatalog

namespace Sql

open Text

/-- A token without its place. -/
structure Piece where
  kind : TokenKind
  text : List Char
  deriving DecidableEq, Repr

/-- The lexer cuts a text into pieces. -/
inductive Cuts : List Piece → List Char → Prop
  /-- There is nothing to cut. -/
  | nil : Cuts [] []
  /-- The first token ends where the rest begins. -/
  | cons {kind : TokenKind} {c : Char} {body rest : List Char} {pieces : List Piece}
      (hscan : scanToken c (body ++ rest) = .ok (kind, body.length + 1))
      (hrest : Cuts pieces rest) : Cuts (⟨kind, c :: body⟩ :: pieces) (c :: (body ++ rest))

/-- Pieces at the places where they stand in a text. -/
def placed (start : Location) : List Piece → List Token
  | [] => []
  | piece :: rest =>
      let stop := start.advanceBy piece.text
      ⟨piece.kind, piece.text, start, stop⟩ :: placed stop rest

variable {pieces : List Piece} {text : List Char}

/-- Nothing is lost between the pieces. -/
theorem Cuts.flatMap_text (hcuts : Cuts pieces text) : pieces.flatMap (·.text) = text := by
  induction hcuts with
  | nil => rfl
  | cons _ _ ih => rw [List.flatMap_cons, ih, List.cons_append]

/-- The tokens of a text are its pieces in their places. -/
theorem Cuts.tokensFrom_eq (hcuts : Cuts pieces text) (start : Location) :
    tokensFrom start text = .ok (placed start pieces) := by
  induction hcuts generalizing start with
  | nil => rw [tokensFrom, placed]
  | cons hscan _ ih =>
      rw [tokensFrom, hscan]
      simp only [Nat.add_sub_cancel, List.take_left, List.drop_left]
      rw [ih, placed]

@[simp] theorem map_kind_placed (start : Location) (pieces : List Piece) :
    (placed start pieces).map (·.kind) = pieces.map (·.kind) := by
  induction pieces generalizing start with
  | nil => rfl
  | cons piece rest ih => rw [placed, List.map_cons, List.map_cons, ih]

theorem map_erase_placed (start : Location) (pieces : List Piece) :
    (placed start pieces).map (fun token => (⟨token.kind, token.text⟩ : Piece)) = pieces := by
  induction pieces generalizing start with
  | nil => rfl
  | cons piece rest ih => rw [placed, List.map_cons, ih]

/-- There is only one way to cut a text. -/
theorem Cuts.unique {others : List Piece} (hcuts : Cuts pieces text) (hother : Cuts others text) :
    pieces = others := by
  have hplaced : placed .start pieces = placed .start others :=
    Except.ok.inj ((hcuts.tokensFrom_eq .start).symm.trans (hother.tokensFrom_eq .start))
  rw [← map_erase_placed .start pieces, hplaced, map_erase_placed]

theorem head?_placed (start : Location) {pieces : List Piece} (hpieces : pieces ≠ []) :
    ∃ token, (placed start pieces).head? = some token ∧ token.start = start := by
  cases pieces with
  | nil => exact absurd rfl hpieces
  | cons piece rest => exact ⟨_, rfl, rfl⟩

/-- The last token stops where the whole text does. -/
theorem getLast?_placed (start : Location) {pieces : List Piece} (hpieces : pieces ≠ []) :
    ∃ token, (placed start pieces).getLast? = some token ∧
      token.stop = start.advanceBy (pieces.flatMap (·.text)) := by
  induction pieces generalizing start with
  | nil => exact absurd rfl hpieces
  | cons piece rest ih =>
      rw [List.flatMap_cons, Location.advanceBy_append, placed]
      by_cases hrest : rest = []
      · exact ⟨_, by rw [hrest]; rfl, by rw [hrest]; rfl⟩
      · obtain ⟨token, htoken, hstop⟩ := ih (start.advanceBy piece.text) hrest
        refine ⟨token, ?_, hstop⟩
        rw [List.getLast?_cons, htoken]
        rfl

/-- The tokens of a text cover the whole of it. -/
theorem Cuts.pieceOf_placed (hcuts : Cuts pieces text) (hpieces : pieces ≠ []) :
    pieceOf text (lineStarts text) (placed .start pieces) = text := by
  obtain ⟨first, hfirst, hstart⟩ := head?_placed .start hpieces
  obtain ⟨last, hlast, hstop⟩ := getLast?_placed .start hpieces
  have hbegin := offsetOf_advanceBy_start [] text
  have hend := offsetOf_advanceBy_start text []
  have hslice := sliceBytes_byteLength [] text []
  rw [List.append_nil] at hend hslice
  rw [pieceOf, hfirst, hlast]
  simp only [hstart, hstop, hcuts.flatMap_text]
  rw [hend]
  exact (congrArg (sliceBytes text · (byteLength text)) hbegin).trans hslice

/-- Tokens among which there is no semicolon are a single run. -/
theorem runs_eq_singleton {tokens : List Token}
    (hkinds : ∀ token ∈ tokens, token.kind ≠ .semicolon) : runs tokens = [tokens] := by
  induction tokens with
  | nil => rfl
  | cons token rest ih =>
      rw [runs, if_neg (hkinds token List.mem_cons_self),
        ih fun other hother => hkinds other (List.mem_cons_of_mem _ hother)]

/-- A text without semicolons among its tokens is one statement, if there is anything in it. -/
theorem Cuts.splitText_eq (hcuts : Cuts pieces text)
    (hkinds : ∀ piece ∈ pieces, piece.kind ≠ .semicolon)
    (hsolid : ∃ piece ∈ pieces, piece.kind ≠ .space) : splitText text = .ok [trim text] := by
  have hruns : runs (placed .start pieces) = [placed .start pieces] := by
    refine runs_eq_singleton fun token htoken => ?_
    have hkind := List.mem_map_of_mem (f := (·.kind)) htoken
    rw [map_kind_placed] at hkind
    obtain ⟨piece, hpiece, hsame⟩ := List.mem_map.mp hkind
    exact hsame ▸ hkinds piece hpiece
  obtain ⟨solid, hmem, hsolid⟩ := hsolid
  have hstatement : isStatement (placed .start pieces) = true := by
    have hkind := List.mem_map_of_mem (f := (·.kind)) hmem
    rw [← map_kind_placed .start pieces] at hkind
    obtain ⟨token, htoken, hsame⟩ := List.mem_map.mp hkind
    rw [isStatement, List.any_eq_true]
    exact ⟨token, htoken, by simpa [hsame] using hsolid⟩
  rw [splitText, tokens, hcuts.tokensFrom_eq]
  simp only [Except.map, hruns]
  rw [List.filter_cons_of_pos hstatement, List.filter_nil, List.map_cons, List.map_nil,
    hcuts.pieceOf_placed (List.ne_nil_of_mem hmem)]

end Sql

end MetricCatalog
