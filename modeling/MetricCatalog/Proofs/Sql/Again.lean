/-
# Statements split again

A statement stands without its text and without the white space around it. Read
on its own it has the tokens that it had, the last of them cut short where the
white space belonged to it, and so it is one statement and stays as it is.
-/

import MetricCatalog.Proofs.Sql.Boundary
import MetricCatalog.Proofs.Sql.Division

namespace MetricCatalog

namespace Sql

open Text

variable {run more : List Piece} {whole text : List Char}

/-! ## A run between semicolons -/

theorem textOf_cons (piece : Piece) (pieces : List Piece) :
    textOf (piece :: pieces) = piece.text ++ textOf pieces := List.flatMap_cons

/-- The tokens of a text can be read off again with its text alone. -/
theorem Cuts.textOf_eq (hcuts : Cuts run whole) : textOf run = whole := hcuts.flatMap_text

/-- A run ends where the text does, or in front of a semicolon. -/
theorem Cuts.exists_of_mem {runs : List (List Piece)} (hcuts : Cuts (joined runs) whole)
    (hrun : run ∈ runs) :
    ∃ more, Cuts (run ++ more) (textOf (run ++ more)) ∧ Stops (textOf more) := by
  induction runs generalizing whole with
  | nil => cases hrun
  | cons first runs ih =>
      by_cases hruns : runs = []
      · obtain rfl : run = first := by simpa [hruns] using hrun
        rw [hruns, joined_singleton, ← List.append_nil run] at hcuts
        refine ⟨[], ?_, stops_nil⟩
        rwa [hcuts.textOf_eq]
      · rw [joined_cons hruns] at hcuts
        rcases List.mem_cons.mp hrun with rfl | hrun
        · refine ⟨semicolon :: joined runs, ?_, stops_semicolon _⟩
          rwa [hcuts.textOf_eq]
        · have hrest : Cuts ([semicolon] ++ joined runs) _ := hcuts.of_append
          exact ih hrest.of_append hrun

/-! ## White space at the ends of a run -/

theorem Stops.append_blank {blank after : List Char} (hblank : ∀ c ∈ blank, isBlank c = true)
    (hstops : Stops after) : Stops (blank ++ after) := by
  cases blank with
  | nil => exact hstops
  | cons c blank => exact stops_blank (hblank c List.mem_cons_self) _

theorem isIdle_of_blank {blank : List Char} (hblank : ∀ c ∈ blank, isBlank c = true) :
    IsIdle blank := by
  induction blank with
  | nil => exact .nil
  | cons c blank ih =>
      exact .blank (hblank c List.mem_cons_self)
        (ih fun d hd => hblank d (List.mem_cons_of_mem c hd))

/-- Of two ways to part a list, one is the earlier or they are the same. -/
theorem append_eq_append_cases {α : Type} {front back first second : List α}
    (hparts : front ++ back = first ++ second) :
    (∃ middle, first = front ++ middle ∧ back = middle ++ second) ∨
      ∃ middle, middle ≠ [] ∧ front = first ++ middle ∧ second = middle ++ back := by
  rcases List.append_eq_append_iff.mp hparts with hlate | ⟨middle, hfront, hsecond⟩
  · exact Or.inl hlate
  · by_cases hmiddle : middle = []
    · exact Or.inl ⟨[], by simp [hfront, hmiddle], by simp [hsecond, hmiddle]⟩
    · exact Or.inr ⟨middle, hmiddle, hfront, hsecond⟩

/-- White space is a token, as far as it is taken at once. -/
theorem scanToken_of_blank {c : Char} {body rest : List Char} {kind : TokenKind}
    (hc : isBlank c = true) (hscan : scanToken c (body ++ rest) = .ok (kind, body.length + 1)) :
    kind = .space ∧ ∀ d ∈ body, isBlank d = true := by
  rcases scanToken_blank hc (body ++ rest) with hone | ⟨tail, htail, htwo⟩
  · obtain ⟨rfl, hlength⟩ := Prod.mk.inj (Except.ok.inj (hscan.symm.trans hone))
    obtain rfl : body = [] := List.length_eq_zero_iff.mp (by omega)
    exact ⟨rfl, nofun⟩
  · obtain ⟨rfl, hlength⟩ := Prod.mk.inj (Except.ok.inj (hscan.symm.trans htwo))
    obtain ⟨d, rfl⟩ := List.length_eq_one_iff.mp (show body.length = 1 by omega)
    obtain rfl : d = '\n' := (List.cons.inj htail).1
    exact ⟨rfl, isBlank_newline⟩

/-- White space in front of a run is made of whole tokens. -/
theorem Cuts.exists_of_blank_append {lead : List Char} (hcuts : Cuts (run ++ more) whole)
    (hrun : textOf run = lead ++ text) (hlead : ∀ c ∈ lead, isBlank c = true)
    (hhead : ∀ c ∈ text.head?, isBlank c = false) :
    ∃ skipped left, run = skipped ++ left ∧ textOf left = text ∧
      ∀ piece ∈ skipped, piece.kind = .space := by
  induction run generalizing lead whole with
  | nil =>
      obtain ⟨rfl, rfl⟩ := List.append_eq_nil_iff.mp hrun.symm
      exact ⟨[], [], rfl, rfl, nofun⟩
  | cons piece run ih =>
      cases lead with
      | nil => exact ⟨[], piece :: run, rfl, hrun, nofun⟩
      | cons d lead =>
          rw [List.cons_append] at hcuts
          cases hcuts with
          | @cons kind c body rest _ hscan hrest =>
              rw [textOf_cons] at hrun
              obtain ⟨rfl, hbody⟩ := List.cons.inj hrun
              obtain ⟨rfl, hblank⟩ := scanToken_of_blank (hlead c List.mem_cons_self) hscan
              rcases append_eq_append_cases hbody with
                ⟨left, rfl, hleft⟩ | ⟨left, hsome, rfl, htext⟩
              · obtain ⟨skipped, kept, rfl, hkept, hspace⟩ :=
                  ih hrest hleft fun e he => hlead e (by simp [he])
                exact ⟨⟨.space, c :: body⟩ :: skipped, kept, rfl, hkept,
                  List.forall_mem_cons.mpr ⟨rfl, hspace⟩⟩
              · obtain ⟨e, left, rfl⟩ := List.exists_cons_of_ne_nil hsome
                have hsolid := hhead e (by rw [htext]; rfl)
                rw [hblank e (by simp)] at hsolid
                cases hsolid

/-- Without the white space at its end a run has the same tokens, apart from spaces at the end. -/
theorem Cuts.exists_of_append_blank {trail : List Char} (hcuts : Cuts (run ++ more) whole)
    (hstops : Stops (textOf more)) (hrun : textOf run = text ++ trail)
    (htrail : ∀ c ∈ trail, isBlank c = true) (hlast : ∀ c ∈ text.getLast?, isBlank c = false) :
    ∃ left spaces, Cuts left text ∧ run.map (·.kind) = left.map (·.kind) ++ spaces ∧
      ∀ kind ∈ spaces, kind = .space := by
  induction run generalizing text whole with
  | nil =>
      obtain ⟨rfl, rfl⟩ := List.append_eq_nil_iff.mp hrun.symm
      exact ⟨[], [], .nil, rfl, nofun⟩
  | cons piece run ih =>
      cases text with
      | nil =>
          have hspace := IsIdle.kind_eq (hrun ▸ isIdle_of_blank htrail) hcuts
          exact ⟨[], (piece :: run).map (·.kind), .nil, rfl, List.forall_mem_map.mpr hspace⟩
      | cons d text =>
          rw [List.cons_append] at hcuts
          cases hcuts with
          | @cons kind c body rest _ hscan hrest =>
              rw [textOf_cons] at hrun
              obtain ⟨rfl, hbody⟩ := List.cons.inj hrun
              have hleft := hrest.textOf_eq
              rw [textOf_append] at hleft
              rcases append_eq_append_cases hbody with
                ⟨left, rfl, hothers⟩ | ⟨back, hsome, rfl, rfl⟩
              · -- the white space starts behind the token
                have hpart : scanToken c (body ++ left) = .ok (kind, body.length + 1) := by
                  rw [← hleft, hothers, List.append_assoc, ← List.append_assoc] at hscan
                  exact scanToken_part (hstops.append_blank htrail) hscan (by simp)
                obtain ⟨kept, spaces, hkept, hkinds, hspace⟩ :=
                  ih hrest hothers fun e he => hlast e (by
                    simp [List.getLast?_cons, Option.mem_def.mp he])
                refine ⟨⟨kind, c :: body⟩ :: kept, spaces, .cons hpart hkept, ?_, hspace⟩
                rw [List.map_cons, List.map_cons, hkinds, List.cons_append]
              · -- the white space starts within the token
                have hsolid := EndsSolid.of_getLast? (List.cons_ne_nil c text) hlast
                rw [List.append_assoc] at hscan
                have hpart : scanToken c (text ++ []) = .ok (kind, text.length + 1) := by
                  rw [List.append_nil]
                  exact scanToken_cut hsolid hsome
                    (fun e he => htrail e (List.mem_append_left _ he)) hscan
                have hspace := IsIdle.kind_eq
                  (isIdle_of_blank fun e he => htrail e (List.mem_append_right back he)) hrest
                refine ⟨[⟨kind, c :: text⟩], run.map (·.kind), ?_, rfl,
                  List.forall_mem_map.mpr hspace⟩
                have hcut := Cuts.cons hpart .nil
                rwa [List.append_nil] at hcut

/-! ## Statements -/

/-- The tokens of a run without the white space around it. -/
theorem Cuts.exists_trim (hcuts : Cuts (run ++ more) whole) (hstops : Stops (textOf more)) :
    ∃ kept lead trail, Cuts kept (trim (textOf run)) ∧
      run.map (·.kind) = lead ++ (kept.map (·.kind) ++ trail) ∧
      (∀ kind ∈ lead, kind = .space) ∧ ∀ kind ∈ trail, kind = .space := by
  obtain ⟨lead, trail, htext, hlead, htrail⟩ := exists_trim_eq (textOf run)
  cases htrim : trim (textOf run) with
  | nil =>
      rw [htrim, List.nil_append] at htext
      have hblank : ∀ c ∈ textOf run, isBlank c = true := by
        rw [htext]
        exact List.forall_mem_append.mpr ⟨hlead, htrail⟩
      have hspace := (isIdle_of_blank hblank).kind_eq hcuts
      exact ⟨[], run.map (·.kind), [], .nil, by simp, List.forall_mem_map.mpr hspace, nofun⟩
  | cons c rest =>
      have hhead := isBlank_head?_trim (textOf run)
      have hlast := isBlank_getLast?_trim (textOf run)
      rw [htrim] at htext hhead hlast
      obtain ⟨skipped, left, rfl, hleft, hskipped⟩ := hcuts.exists_of_blank_append htext hlead hhead
      rw [List.append_assoc] at hcuts
      obtain ⟨kept, spaces, hkept, hkinds, hspaces⟩ :=
        hcuts.of_append.exists_of_append_blank hstops hleft htrail hlast
      refine ⟨kept, skipped.map (·.kind), spaces, hkept, ?_, List.forall_mem_map.mpr hskipped,
        hspaces⟩
      rw [List.map_append, hkinds]

theorem hasCode_eq_any (run : List Piece) : hasCode run = (run.map (·.kind)).any (· ≠ .space) := by
  rw [hasCode, List.any_map]
  rfl

/-- A run with code in it is a statement, and this is the only one of its own text. -/
theorem Cuts.splitText_trim (hcuts : Cuts (run ++ more) whole) (hstops : Stops (textOf more))
    (hrun : IsRun run) (hcode : hasCode run = true) :
    trim (textOf run) ≠ [] ∧ splitText (trim (textOf run)) = .ok [trim (textOf run)] := by
  obtain ⟨kept, lead, trail, hkept, hkinds, hlead, htrail⟩ := hcuts.exists_trim hstops
  have hsolid : ∃ piece ∈ kept, piece.kind ≠ .space := by
    rw [hasCode_eq_any, hkinds, List.any_eq_true] at hcode
    obtain ⟨kind, hmem, hkind⟩ := hcode
    have hne : kind ≠ .space := by simpa using hkind
    rcases List.mem_append.mp hmem with hmem | hmem
    · exact absurd (hlead kind hmem) hne
    · rcases List.mem_append.mp hmem with hmem | hmem
      · obtain ⟨piece, hpiece, rfl⟩ := List.mem_map.mp hmem
        exact ⟨piece, hpiece, hne⟩
      · exact absurd (htrail kind hmem) hne
  have hkeptRun : ∀ piece ∈ kept, piece.kind ≠ .semicolon := by
    intro piece hpiece
    have hmem : piece.kind ∈ run.map (·.kind) := by
      rw [hkinds]
      exact List.mem_append_right _ (List.mem_append_left _ (List.mem_map_of_mem hpiece))
    obtain ⟨other, hother, hsame⟩ := List.mem_map.mp hmem
    exact hsame ▸ hrun other hother
  refine ⟨fun hnil => ?_, ?_⟩
  · rw [hnil] at hkept
    cases hkept
    obtain ⟨piece, hpiece, -⟩ := hsolid
    cases hpiece
  · rw [hkept.splitText_eq hkeptRun hsolid, trim_trim]

/-- A sign that takes the newline behind it, and a comment with a semicolon in it. -/
def cutRuns : List (List Piece) :=
  [[⟨.other, ['@', '\n']⟩],
    [⟨.space, [' ']⟩, ⟨.other, ['1']⟩, ⟨.space, [' ']⟩, ⟨.space, ['-', '-', ';', '\t', '\n']⟩]]

theorem cuts_cutRuns : Cuts (joined cutRuns) "@\n; 1 --;\t\n".toList := by
  have hsign : scanToken '@' (['\n'] ++ [';', ' ', '1', ' ', '-', '-', ';', '\t', '\n']) =
      .ok (.other, 2) := rfl
  have hsemicolon : scanToken ';' ([] ++ [' ', '1', ' ', '-', '-', ';', '\t', '\n']) =
      .ok (.semicolon, 1) := rfl
  have hblank : scanToken ' ' ([] ++ ['1', ' ', '-', '-', ';', '\t', '\n']) = .ok (.space, 1) := rfl
  have hnumber : scanToken '1' ([] ++ [' ', '-', '-', ';', '\t', '\n']) = .ok (.other, 1) := rfl
  have hspace : scanToken ' ' ([] ++ ['-', '-', ';', '\t', '\n']) = .ok (.space, 1) := rfl
  have hcomment : scanToken '-' (['-', ';', '\t', '\n'] ++ []) = .ok (.space, 5) := rfl
  exact .cons hsign (.cons hsemicolon (.cons hblank (.cons hnumber (.cons hspace
    (.cons hcomment .nil)))))

end Sql

end MetricCatalog
