/-
# Texts one behind the other

With a newline and a semicolon between them two texts keep their statements. The
newline ends what the first text may have left open: it is a token of its own, or
it goes to the last token of that text.
-/

import MetricCatalog.Proofs.Sql.Again

namespace MetricCatalog

namespace Sql

open Text

variable {pieces longer first second : List Piece} {text rest : List Char}

/-- The tokens of a text, and those of the text with a newline behind it. -/
inductive WithNewline : List Piece → List Piece → Prop
  | apart : WithNewline [] [⟨.space, ['\n']⟩]
  /-- The last token takes the newline. -/
  | taken {kind : TokenKind} {text : List Char} (hkind : kind ≠ .semicolon) :
      WithNewline [⟨kind, text⟩] [⟨kind, text ++ ['\n']⟩]
  | cons (piece : Piece) {pieces longer : List Piece} (hrest : WithNewline pieces longer) :
      WithNewline (piece :: pieces) (piece :: longer)

namespace WithNewline

theorem textOf_eq (hnewline : WithNewline pieces longer) :
    textOf longer = textOf pieces ++ ['\n'] := by
  induction hnewline with
  | apart => rfl
  | taken => rw [textOf_cons, textOf_cons]; simp [textOf]
  | cons piece _ ih => rw [textOf_cons, textOf_cons, ih, List.append_assoc]

theorem hasCode_eq (hnewline : WithNewline pieces longer) : hasCode longer = hasCode pieces := by
  induction hnewline with
  | apart | taken => rfl
  | cons piece _ ih =>
      rw [hasCode, hasCode] at *
      rw [List.any_cons, List.any_cons, ih]

theorem isRun (hnewline : WithNewline pieces longer) (hrun : IsRun pieces) : IsRun longer := by
  induction hnewline with
  | apart => decide
  | taken hkind => exact List.forall_mem_singleton.mpr hkind
  | cons piece _ ih =>
      obtain ⟨hpiece, hrest⟩ := List.forall_mem_cons.mp hrun
      exact List.forall_mem_cons.mpr ⟨hpiece, ih hrest⟩

/-- Behind a semicolon it is the last run that gets the newline. -/
theorem of_semicolon (hnewline : WithNewline (first ++ semicolon :: second) longer) :
    ∃ last, longer = first ++ semicolon :: last ∧ WithNewline second last := by
  induction first generalizing longer with
  | nil =>
      cases hnewline with
      | taken hkind => exact absurd rfl hkind
      | cons _ hrest => exact ⟨_, rfl, hrest⟩
  | cons piece first ih =>
      generalize hpieces : piece :: first ++ semicolon :: second = pieces at hnewline
      cases hnewline with
      | apart => cases hpieces
      | taken => simp at hpieces
      | cons _ hrest =>
          obtain ⟨rfl, rfl⟩ := List.cons.inj hpieces
          obtain ⟨last, rfl, hlast⟩ := ih hrest
          exact ⟨last, rfl, hlast⟩

end WithNewline

/-- The lexer comes to the semicolon behind the newline, whatever the text ends with. -/
theorem Cuts.exists_withNewline (hcuts : Cuts pieces text) (hsecond : Cuts second rest) :
    ∃ longer, WithNewline pieces longer ∧
      Cuts (longer ++ semicolon :: second) (text ++ '\n' :: ';' :: rest) := by
  have hsign : scanToken ';' ([] ++ rest) = .ok (.semicolon, 1) := rfl
  have hbehind : Cuts (semicolon :: second) (';' :: rest) := .cons hsign hsecond
  induction hcuts with
  | nil =>
      have hspace : scanToken '\n' ([] ++ ';' :: rest) = .ok (.space, 1) := rfl
      exact ⟨_, .apart, .cons hspace hbehind⟩
  | @cons kind c body left others hscan hrest ih =>
      rw [List.cons_append, List.append_assoc]
      rcases scanToken_newline hscan rest with hsame | ⟨hkind, hlength, htaken⟩
      · obtain ⟨longer, hlonger, hcuts⟩ := ih
        rw [List.append_assoc] at hsame
        exact ⟨_, .cons _ hlonger, .cons hsame hcuts⟩
      · obtain rfl : left = [] := by simpa using hlength
        cases hrest
        have hwhole : scanToken c ((body ++ ['\n']) ++ ';' :: rest) =
            .ok (kind, (body ++ ['\n']).length + 1) := by simpa using htaken
        refine ⟨_, .taken hkind, ?_⟩
        have hcuts := Cuts.cons hwhole hbehind
        simpa using hcuts

theorem statementsOf_append (front back : List (List Piece)) :
    statementsOf (front ++ back) = statementsOf front ++ statementsOf back := by
  rw [statementsOf, List.filter_append, List.map_append]
  rfl

theorem WithNewline.statementsOf_eq (hnewline : WithNewline pieces longer) :
    statementsOf [longer] = statementsOf [pieces] := by
  have htrim : trim (textOf longer) = trim (textOf pieces) := by
    rw [hnewline.textOf_eq, trim_append_blank isBlank_newline]
  rw [statementsOf, statementsOf, List.filter_cons, List.filter_cons, hnewline.hasCode_eq]
  split
  · rw [List.map_cons, List.map_cons, htrim]
  · rfl

/-- The runs of a text with a newline behind it make the same statements. -/
theorem WithNewline.exists_runs {runs : List (List Piece)}
    (hnewline : WithNewline (joined runs) longer) (hsome : runs ≠ [])
    (hruns : ∀ run ∈ runs, IsRun run) :
    ∃ others, others ≠ [] ∧ joined others = longer ∧ (∀ run ∈ others, IsRun run) ∧
      statementsOf others = statementsOf runs := by
  induction runs generalizing longer with
  | nil => exact absurd rfl hsome
  | cons run runs ih =>
      obtain ⟨hrun, hrest⟩ := List.forall_mem_cons.mp hruns
      by_cases hnone : runs = []
      · rw [hnone, joined_singleton] at hnewline
        rw [hnone]
        exact ⟨[longer], by simp, joined_singleton longer,
          List.forall_mem_singleton.mpr (hnewline.isRun hrun), hnewline.statementsOf_eq⟩
      · rw [joined_cons hnone] at hnewline
        obtain ⟨last, rfl, hlast⟩ := hnewline.of_semicolon
        obtain ⟨others, hothers, rfl, hall, hsame⟩ := ih hlast hnone hrest
        refine ⟨run :: others, by simp, joined_cons hothers run,
          List.forall_mem_cons.mpr ⟨hrun, hall⟩, ?_⟩
        rw [← List.singleton_append, statementsOf_append, hsame, ← statementsOf_append,
          List.singleton_append]

theorem joined_append {front back : List (List Piece)} (hfront : front ≠ []) (hback : back ≠ []) :
    joined (front ++ back) = joined front ++ semicolon :: joined back := by
  induction front with
  | nil => exact absurd rfl hfront
  | cons run front ih =>
      by_cases hnone : front = []
      · rw [hnone, joined_singleton, List.singleton_append, joined_cons hback]
      · rw [List.cons_append, joined_cons (by simp [hnone]), joined_cons hnone, ih hnone,
          List.append_assoc, List.cons_append]

/-- A text that ends with a sign which would take a word, and one that starts with a comment. -/
def openRuns : List (List Piece) × List (List Piece) :=
  ([[⟨.other, ['2']⟩], [⟨.other, ['@']⟩]],
    [[⟨.space, ['-', '-', ';', '\n']⟩, ⟨.other, ['3']⟩]])

theorem cuts_openRuns :
    Cuts (joined openRuns.1) "2;@".toList ∧ Cuts (joined openRuns.2) "--;\n3".toList := by
  have hnumber : scanToken '2' ([] ++ [';', '@']) = .ok (.other, 1) := rfl
  have hsemicolon : scanToken ';' ([] ++ ['@']) = .ok (.semicolon, 1) := rfl
  have hsign : scanToken '@' ([] ++ []) = .ok (.other, 1) := rfl
  have hcomment : scanToken '-' (['-', ';', '\n'] ++ ['3']) = .ok (.space, 4) := rfl
  have hlast : scanToken '3' ([] ++ []) = .ok (.other, 1) := rfl
  exact ⟨.cons hnumber (.cons hsemicolon (.cons hsign .nil)), .cons hcomment (.cons hlast .nil)⟩

end Sql

end MetricCatalog
