/-
# The division of a text into statements

The semicolons among the tokens of a text divide it into runs of other tokens.
Joined by semicolons, the runs give the text back, and the statements are the
trimmed texts of those runs that are more than white space and comments.
-/

import MetricCatalog.Proofs.Sql.Idle

namespace MetricCatalog

namespace Sql

open Text

/-- The sign between two runs. -/
def semicolon : Piece := ⟨.semicolon, [';']⟩

/-- The tokens of some runs and the semicolons between them. -/
def joined (runs : List (List Piece)) : List Piece := [semicolon].intercalate runs

/-- Whether there is more than white space and comments in a run. -/
def hasCode (run : List Piece) : Bool := run.any (·.kind ≠ .space)

/-- No token of a run is a semicolon. -/
def IsRun (run : List Piece) : Prop := ∀ piece ∈ run, piece.kind ≠ .semicolon

instance : DecidablePred IsRun :=
  fun run => inferInstanceAs (Decidable (∀ piece ∈ run, piece.kind ≠ .semicolon))

theorem joined_singleton (run : List Piece) : joined [run] = run := List.intercalate_singleton

theorem joined_cons {runs : List (List Piece)} (hruns : runs ≠ []) (run : List Piece) :
    joined (run :: runs) = run ++ semicolon :: joined runs := by
  rw [joined, List.intercalate_cons_of_ne_nil hruns, List.append_assoc]
  rfl

theorem textOf_append (first second : List Piece) :
    textOf (first ++ second) = textOf first ++ textOf second := List.flatMap_append

theorem textOf_joined (runs : List (List Piece)) :
    textOf (joined runs) = [';'].intercalate (runs.map textOf) := by
  induction runs with
  | nil => rfl
  | cons run runs ih =>
      by_cases hruns : runs = []
      · rw [hruns, joined_singleton]
        exact List.intercalate_singleton.symm
      · rw [joined_cons hruns, textOf_append, List.map_cons,
          List.intercalate_cons_of_ne_nil (by simpa using hruns), ← ih, List.append_assoc]
        rfl

/-! ## The tokens of a text -/

/-- The lexer gives nothing but the pieces that the text is cut into. -/
theorem exists_cuts_of_tokensFrom {start : Location} {text : List Char} {found : List Token}
    (htokens : tokensFrom start text = .ok found) :
    ∃ pieces, Cuts pieces text ∧ found = placed start pieces := by
  fun_induction tokensFrom start text generalizing found with
  | case1 =>
      cases htokens
      exact ⟨[], .nil, rfl⟩
  | case2 | case4 => cases htokens
  | case3 start c rest kind length hscan _ _ tokens hrest =>
      rename_i ih
      cases htokens
      obtain ⟨pieces, hcuts, rfl⟩ := ih hrest
      obtain ⟨hpos, hle⟩ := scanToken_within hscan
      have hsplit := List.take_append_drop (length - 1) rest
      have hlength : length = (rest.take (length - 1)).length + 1 := by
        rw [List.length_take]
        omega
      have hscan : scanToken c (rest.take (length - 1) ++ rest.drop (length - 1)) =
          .ok (kind, (rest.take (length - 1)).length + 1) := by
        rw [hsplit, ← hlength, hscan]
      have hwhole := Cuts.cons hscan hcuts
      rw [hsplit] at hwhole
      exact ⟨_, hwhole, rfl⟩

theorem exists_cuts_of_tokens {text : List Char} {found : List Token}
    (htokens : tokens text = .ok found) :
    ∃ pieces, Cuts pieces text ∧ found = placed .start pieces :=
  exists_cuts_of_tokensFrom htokens

/-- Every text that has tokens is divided into runs. -/
theorem Cuts.exists_runs {pieces : List Piece} {text : List Char} (hcuts : Cuts pieces text) :
    ∃ runs, runs ≠ [] ∧ joined runs = pieces ∧ ∀ run ∈ runs, IsRun run := by
  induction hcuts with
  | nil => exact ⟨[[]], by simp, rfl, by simp [IsRun]⟩
  | @cons kind c body rest pieces hscan _ ih =>
      obtain ⟨runs, hruns, rfl, hall⟩ := ih
      by_cases hkind : kind = .semicolon
      · subst hkind
        obtain ⟨rfl, hlength⟩ := scanToken_semicolon hscan
        obtain rfl : body = [] := List.length_eq_zero_iff.mp (by omega)
        refine ⟨[] :: runs, by simp, joined_cons hruns [], ?_⟩
        intro run hrun
        rcases List.mem_cons.mp hrun with rfl | hrun
        · simp [IsRun]
        · exact hall run hrun
      · obtain ⟨first, others, rfl⟩ := List.exists_cons_of_ne_nil hruns
        refine ⟨(⟨kind, c :: body⟩ :: first) :: others, by simp, ?_, ?_⟩
        · by_cases hothers : others = []
          · rw [hothers, joined_singleton, joined_singleton]
          · rw [joined_cons hothers, joined_cons hothers, List.cons_append]
        · intro run hrun
          rcases List.mem_cons.mp hrun with rfl | hrun
          · intro piece hpiece
            rcases List.mem_cons.mp hpiece with rfl | hpiece
            · exact hkind
            · exact hall first List.mem_cons_self piece hpiece
          · exact hall run (List.mem_cons_of_mem _ hrun)

/-! ## Runs in their places -/

/-- Each run at the place where it stands in the text. -/
def placedRuns (start : Location) : List (List Piece) → List (List Token)
  | [] => []
  | run :: rest => placed start run :: placedRuns (start.advanceBy (textOf run ++ [';'])) rest

theorem placed_append (start : Location) (first second : List Piece) :
    placed start (first ++ second) =
      placed start first ++ placed (start.advanceBy (textOf first)) second := by
  induction first generalizing start with
  | nil => rfl
  | cons piece first ih =>
      rw [List.cons_append, placed, placed, ih, List.cons_append, ← Location.advanceBy_append]
      rfl

theorem IsRun.kind_placed {run : List Piece} (hrun : IsRun run) (start : Location) :
    ∀ token ∈ placed start run, token.kind ≠ .semicolon := by
  intro token htoken
  have hkind := List.mem_map_of_mem (f := (·.kind)) htoken
  rw [map_kind_placed] at hkind
  obtain ⟨piece, hpiece, hsame⟩ := List.mem_map.mp hkind
  exact hsame ▸ hrun piece hpiece

/-- A semicolon ends the run in front of it. -/
theorem runs_append {front : List Token} (hfront : ∀ token ∈ front, token.kind ≠ .semicolon)
    {token : Token} (htoken : token.kind = .semicolon) (rest : List Token) :
    runs (front ++ token :: rest) = front :: runs rest := by
  induction front with
  | nil => rw [List.nil_append, runs, if_pos htoken]
  | cons other front ih =>
      rw [List.cons_append, runs, if_neg (hfront other List.mem_cons_self),
        ih fun token htoken => hfront token (List.mem_cons_of_mem _ htoken)]

theorem runs_placed_joined (start : Location) {runs : List (List Piece)} (hsome : runs ≠ [])
    (hruns : ∀ run ∈ runs, IsRun run) :
    Sql.runs (placed start (joined runs)) = placedRuns start runs := by
  induction runs generalizing start with
  | nil => exact absurd rfl hsome
  | cons run rest ih =>
      have hrun := (hruns run List.mem_cons_self).kind_placed start
      by_cases hrest : rest = []
      · rw [hrest, joined_singleton, runs_eq_singleton hrun]
        rfl
      · rw [joined_cons hrest, placed_append, placed, runs_append hrun rfl, placedRuns,
          Location.advanceBy_append, ← ih _ hrest fun other hother =>
            hruns other (List.mem_cons_of_mem _ hother)]
        rfl

theorem isStatement_placed (start : Location) (run : List Piece) :
    isStatement (placed start run) = hasCode run := by
  have hkinds : ∀ tokens : List Token,
      isStatement tokens = (tokens.map (·.kind)).any (· ≠ .space) := by
    intro tokens
    rw [isStatement, List.any_map]
    rfl
  rw [hkinds, map_kind_placed, hasCode, List.any_map]
  rfl

/-- The first and the last token of a run are where its text begins and ends. -/
theorem offsets_placed (before : List Char) {run : List Piece} (hrun : run ≠ [])
    (after : List Char) {text : List Char} (htext : text = before ++ (textOf run ++ after)) :
    ∃ first last, (placed (Location.start.advanceBy before) run).head? = some first ∧
      (placed (Location.start.advanceBy before) run).getLast? = some last ∧
      offsetOf (lineStarts text) text first.start = byteLength before ∧
      offsetOf (lineStarts text) text last.stop = byteLength (before ++ textOf run) := by
  obtain ⟨first, hfirst, hstart⟩ := head?_placed (Location.start.advanceBy before) hrun
  obtain ⟨last, hlast, hstop⟩ := getLast?_placed (Location.start.advanceBy before) hrun
  have hbegin := offsetOf_advanceBy_start before (textOf run ++ after)
  have hend := offsetOf_advanceBy_start (before ++ textOf run) after
  rw [List.append_assoc, ← htext] at hend
  rw [← htext] at hbegin
  refine ⟨first, last, hfirst, hlast, by rw [hstart, hbegin], ?_⟩
  rw [hstop, ← Location.advanceBy_append, ← textOf, hend]

/-- The places of a run lead back to its text. -/
theorem pieceOf_placed (before : List Char) (run : List Piece) (after : List Char) :
    pieceOf (before ++ (textOf run ++ after)) (lineStarts (before ++ (textOf run ++ after)))
      (placed (Location.start.advanceBy before) run) = textOf run := by
  by_cases hrun : run = []
  · rw [hrun]
    rfl
  · obtain ⟨first, last, hfirst, hlast, hbegin, hend⟩ := offsets_placed before hrun after rfl
    rw [pieceOf, hfirst, hlast]
    simp only
    rw [hbegin, hend]
    exact sliceBytes_byteLength before (textOf run) after

/-- Behind a run there is nothing, or a semicolon and the other runs. -/
theorem exists_textOf_joined (run : List Piece) (rest : List (List Piece)) :
    ∃ after, textOf (joined (run :: rest)) = textOf run ++ after ∧
      (rest ≠ [] → after = [';'] ++ textOf (joined rest)) := by
  by_cases hrest : rest = []
  · exact ⟨[], by rw [hrest, joined_singleton, List.append_nil], fun hsome => absurd hrest hsome⟩
  · refine ⟨[';'] ++ textOf (joined rest), ?_, fun _ => rfl⟩
    rw [joined_cons hrest, textOf_append]
    rfl

/-- By induction on the runs: each of them stands where its text does. -/
theorem exists_of_mem_placedRuns {before : List Char} {runs : List (List Piece)} {text : List Char}
    (htext : text = before ++ textOf (joined runs)) {found : List Token}
    (hfound : found ∈ placedRuns (Location.start.advanceBy before) runs) :
    ∃ front run after, text = front ++ (textOf run ++ after) ∧
      found = placed (Location.start.advanceBy front) run := by
  induction runs generalizing before with
  | nil => cases hfound
  | cons run rest ih =>
      obtain ⟨after, hjoined, hafter⟩ := exists_textOf_joined run rest
      rw [hjoined] at htext
      rcases List.mem_cons.mp hfound with rfl | hlater
      · exact ⟨before, run, after, htext, rfl⟩
      · have hrest : rest ≠ [] := by
          rintro rfl
          cases hlater
        rw [← Location.advanceBy_append] at hlater
        refine ih ?_ hlater
        rw [htext, hafter hrest, List.append_assoc, List.append_assoc]

theorem statements_placedRuns (before : List Char) (runs : List (List Piece)) {text : List Char}
    (htext : text = before ++ textOf (joined runs)) :
    ((placedRuns (Location.start.advanceBy before) runs).filter isStatement).map
      (fun run => trim (pieceOf text (lineStarts text) run)) =
    (runs.filter hasCode).map fun run => trim (textOf run) := by
  induction runs generalizing before with
  | nil => rfl
  | cons run rest ih =>
      obtain ⟨after, hjoined, hafter⟩ := exists_textOf_joined run rest
      rw [hjoined] at htext
      have hpiece := pieceOf_placed before run after
      rw [← htext] at hpiece
      have hothers : ((placedRuns (Location.start.advanceBy (before ++ (textOf run ++ [';'])))
          rest).filter isStatement).map (fun run => trim (pieceOf text (lineStarts text) run)) =
          (rest.filter hasCode).map fun run => trim (textOf run) := by
        by_cases hrest : rest = []
        · rw [hrest]
          rfl
        · apply ih
          rw [htext, hafter hrest, List.append_assoc, List.append_assoc]
      rw [placedRuns, ← Location.advanceBy_append, List.filter_cons, List.filter_cons,
        isStatement_placed]
      split
      · rw [List.map_cons, List.map_cons, hpiece, hothers]
      · exact hothers

/-- A token that is no semicolon stands in one of the runs. -/
theorem exists_run_of_joined {runs : List (List Piece)} {front rest : List Piece} {piece : Piece}
    (hpiece : piece.kind ≠ .semicolon) (hjoined : joined runs = front ++ piece :: rest) :
    ∃ earlier left right later, runs = earlier ++ (left ++ piece :: right) :: later ∧
      front = joined (earlier ++ [left]) := by
  induction runs generalizing front with
  | nil =>
      have hnil := List.append_eq_nil_iff.mp hjoined.symm
      cases hnil.2
  | cons run others ih =>
      by_cases hothers : others = []
      · rw [hothers, joined_singleton] at hjoined
        exact ⟨[], front, rest, [], by rw [hothers, hjoined]; rfl, (joined_singleton front).symm⟩
      · rw [joined_cons hothers] at hjoined
        have hne : semicolon ≠ piece := by
          rintro rfl
          exact hpiece rfl
        rcases List.append_eq_append_iff.mp hjoined with ⟨left, hfront, hleft⟩ | ⟨left, hrun, hleft⟩
        · cases left with
          | nil => exact absurd (List.cons.inj hleft).1 hne
          | cons sign before =>
              obtain ⟨rfl, hbefore⟩ := List.cons.inj hleft
              obtain ⟨earlier, left, right, later, rfl, rfl⟩ := ih hbefore
              refine ⟨run :: earlier, left, right, later, rfl, ?_⟩
              rw [hfront, List.cons_append, joined_cons (by simp)]
        · cases left with
          | nil => exact absurd (List.cons.inj hleft).1.symm hne
          | cons other left =>
              obtain ⟨rfl, -⟩ := List.cons.inj hleft
              exact ⟨[], front, left, others, by rw [hrun]; rfl, (joined_singleton front).symm⟩

/-- An enclosed text is the next token wherever the lexer comes to it. -/
theorem Cuts.enclosed {pieces : List Piece} {kind : TokenKind} {shield after : List Char}
    (hcuts : Cuts pieces (shield ++ after)) (henclosed : Enclosed kind shield after) :
    ∃ rest, pieces = ⟨kind, shield⟩ :: rest := by
  obtain ⟨c, body, rfl, hscan⟩ := henclosed.scanToken_eq
  generalize htext : c :: body ++ after = text at hcuts
  cases hcuts with
  | nil => cases htext
  | @cons found d front rest pieces hfound _ =>
      obtain ⟨rfl, hbody⟩ := List.cons.inj htext
      change body ++ after = front ++ rest at hbody
      rw [← hbody] at hfound
      obtain ⟨rfl, hlength⟩ := Prod.mk.inj (Except.ok.inj (hfound.symm.trans hscan))
      obtain ⟨rfl, -⟩ := List.append_inj hbody (by omega)
      exact ⟨pieces, rfl⟩

theorem Cuts.of_append {front back : List Piece} {text : List Char}
    (hcuts : Cuts (front ++ back) text) : Cuts back (textOf back) := by
  induction front generalizing text with
  | nil =>
      rw [List.nil_append] at hcuts
      rw [textOf, hcuts.flatMap_text]
      exact hcuts
  | cons piece front ih =>
      rw [List.cons_append] at hcuts
      cases hcuts with
      | cons _ hrest => exact ih hrest

theorem Enclosed.kind_ne {kind : TokenKind} {shield after : List Char}
    (henclosed : Enclosed kind shield after) : kind ≠ .semicolon := by
  cases henclosed <;> decide

theorem IsRun.hasCode_iff {run more : List Piece} {text : List Char}
    (hcuts : Cuts (run ++ more) text) : hasCode run = true ↔ ¬ IsIdle (textOf run) := by
  rw [hasCode, List.any_eq_true]
  constructor
  · rintro ⟨piece, hpiece, hkind⟩ hidle
    rw [hidle.kind_eq hcuts piece hpiece] at hkind
    cases hkind
  · intro hidle
    by_contra hall
    refine hidle (isIdle_textOf hcuts fun piece hpiece => ?_)
    by_contra hkind
    exact hall ⟨piece, hpiece, by simpa using hkind⟩

/-- Behind the front runs, the tokens of a text go on with the next run. -/
theorem exists_joined_eq (earlier : List (List Piece)) (run : List Piece)
    (later : List (List Piece)) :
    ∃ front more, joined (earlier ++ run :: later) = front ++ (run ++ more) := by
  induction earlier with
  | nil =>
      by_cases hlater : later = []
      · exact ⟨[], [], by simp [hlater, joined_singleton]⟩
      · exact ⟨[], _, joined_cons hlater run⟩
  | cons first earlier ih =>
      obtain ⟨front, more, hjoined⟩ := ih
      refine ⟨first ++ semicolon :: front, more, ?_⟩
      rw [List.cons_append, joined_cons (by simp), hjoined, List.append_assoc, List.cons_append]

/-- The statements are read off the runs. -/
theorem Cuts.splitText_joined {runs : List (List Piece)} {text : List Char}
    (hcuts : Cuts (joined runs) text) (hsome : runs ≠ []) (hruns : ∀ run ∈ runs, IsRun run) :
    splitText text = .ok ((runs.filter hasCode).map fun run => trim (textOf run)) := by
  have hstatements := statements_placedRuns [] runs hcuts.flatMap_text.symm
  rw [Location.advanceBy_nil] at hstatements
  rw [splitText, tokens, hcuts.tokensFrom_eq]
  simp only [Except.map, runs_placed_joined .start hsome hruns]
  rw [hstatements]

/-- The statements that runs are read as. -/
def statementsOf (runs : List (List Piece)) : List String :=
  (runs.filter hasCode).map fun run => String.ofList (trim (textOf run))

theorem Cuts.splitStatements_eq {runs : List (List Piece)} {sql : String}
    (hcuts : Cuts (joined runs) sql.toList) (hsome : runs ≠ []) (hruns : ∀ run ∈ runs, IsRun run) :
    splitStatements sql = .ok (statementsOf runs) := by
  rw [splitStatements, hcuts.splitText_joined hsome hruns]
  simp only [Except.map, List.map_map]
  rfl

/-- A text that is split consists of runs, and its statements are those with code in them. -/
theorem exists_runs_of_splitStatements {sql : String} {statements : List String}
    (hsplit : splitStatements sql = .ok statements) :
    ∃ runs, runs ≠ [] ∧ Cuts (joined runs) sql.toList ∧ (∀ run ∈ runs, IsRun run) ∧
      statements = statementsOf runs := by
  cases htokens : tokens sql.toList with
  | error fault =>
      rw [splitStatements, splitText, htokens] at hsplit
      cases hsplit
  | ok found =>
      obtain ⟨pieces, hcuts, rfl⟩ := exists_cuts_of_tokens htokens
      obtain ⟨runs, hsome, rfl, hruns⟩ := hcuts.exists_runs
      rw [hcuts.splitStatements_eq hsome hruns] at hsplit
      cases hsplit
      exact ⟨runs, hsome, hcuts, hruns, rfl⟩

/-- How a text is divided into statements. -/
structure Divides (runs : List (List Piece)) (sql : String) (statements : List String) : Prop where
  /-- The tokens of the text are those of the runs, with a semicolon between two runs. -/
  tokens_eq : tokens sql.toList = .ok (placed .start (joined runs))
  isRun : ∀ run ∈ runs, IsRun run
  /-- Nothing is lost and nothing is added. -/
  text_eq : sql.toList = [';'].intercalate (runs.map textOf)
  statements_eq : statements =
    (runs.filter hasCode).map fun run => String.ofList (trim (textOf run))
  /-- A run is left out just when there is nothing to run in it. -/
  hasCode_iff : ∀ run ∈ runs, hasCode run = true ↔ ¬ IsIdle (textOf run)
  /-- Where the lexer comes to a string, a quoted identifier or a comment, this stands whole in one
  of the runs, and what is in front of it is in the runs before and in the start of its own. -/
  enclosed : ∀ front back kind shield after, joined runs = front ++ back →
    textOf back = shield ++ after → Enclosed kind shield after →
    ∃ earlier left right later, runs = earlier ++ (left ++ ⟨kind, shield⟩ :: right) :: later ∧
      textOf front = [';'].intercalate ((earlier ++ [left]).map textOf)

/-- A string with a semicolon in it, and a comment with another one. -/
def hiddenRuns : List (List Piece) :=
  [[⟨.other, ['\'', ';', '\'']⟩], [⟨.space, [' ']⟩, ⟨.space, ['-', '-', ';']⟩]]

theorem cuts_hiddenRuns : Cuts (joined hiddenRuns) "';'; --;".toList := by
  have hstring : scanToken '\'' ([';', '\''] ++ [';', ' ', '-', '-', ';']) = .ok (.other, 3) := rfl
  have hsign : scanToken ';' ([] ++ [' ', '-', '-', ';']) = .ok (.semicolon, 1) := rfl
  have hblank : scanToken ' ' ([] ++ ['-', '-', ';']) = .ok (.space, 1) := rfl
  have hcomment : scanToken '-' (['-', ';'] ++ []) = .ok (.space, 3) := rfl
  exact .cons hstring (.cons hsign (.cons hblank (.cons hcomment .nil)))

/-- What is read to get to a place has as many bytes as the offset of the place says, whatever the
characters and the lines. So the statements of a text are cut out between characters, from offsets
that the text has, and none of them ends before it starts. -/
theorem offsets_of_statements :
    (∀ front back : String,
      offsetOf (lineStarts (front ++ back).toList) (front ++ back).toList
        (Location.start.advanceBy front.toList) = front.utf8ByteSize) ∧
    ∀ (sql : String) (found : List Token), tokens sql.toList = .ok found →
      ∀ run ∈ (runs found).filter isStatement, ∃ first last,
        run.head? = some first ∧ run.getLast? = some last ∧
        let offset := offsetOf (lineStarts sql.toList) sql.toList
        (⟨offset first.start⟩ : String.Pos.Raw).IsValid sql ∧
          (⟨offset last.stop⟩ : String.Pos.Raw).IsValid sql ∧
          offset first.start ≤ offset last.stop := by
  refine ⟨fun front back => ?_, fun sql found htokens run hrun => ?_⟩
  · rw [String.toList_append, offsetOf_advanceBy_start, byteLength_toList]
  · obtain ⟨hrun, hstatement⟩ := List.mem_filter.mp hrun
    obtain ⟨pieces, hcuts, rfl⟩ := exists_cuts_of_tokens htokens
    obtain ⟨runs, hsome, rfl, hruns⟩ := hcuts.exists_runs
    rw [runs_placed_joined .start hsome hruns, ← Location.advanceBy_nil .start] at hrun
    obtain ⟨before, run, after, htext, rfl⟩ :=
      exists_of_mem_placedRuns hcuts.flatMap_text.symm hrun
    have hrun : run ≠ [] := by
      rintro rfl
      cases hstatement
    obtain ⟨first, last, hfirst, hlast, hbegin, hend⟩ := offsets_placed before hrun after htext
    refine ⟨first, last, hfirst, hlast, ?_⟩
    simp only
    rw [hbegin, hend]
    have hwhole : sql.toList = (before ++ textOf run) ++ after := by
      rw [htext, List.append_assoc]
    refine ⟨isValid_byteLength htext, isValid_byteLength hwhole, ?_⟩
    rw [byteLength_append]
    exact Nat.le_add_right _ _

/-- A string in two lines and an identifier in the next one, none of them plain. -/
def longText : String := "'é\nü';\n\"ß\""

def longRuns : List (List Piece) :=
  [[⟨.other, ['\'', 'é', '\n', 'ü', '\'']⟩], [⟨.space, ['\n']⟩, ⟨.other, ['"', 'ß', '"']⟩]]

theorem cuts_longRuns : Cuts (joined longRuns) longText.toList := by
  have hstring : scanToken '\'' (['é', '\n', 'ü', '\''] ++ [';', '\n', '"', 'ß', '"']) =
      .ok (.other, 5) := rfl
  have hsign : scanToken ';' ([] ++ ['\n', '"', 'ß', '"']) = .ok (.semicolon, 1) := rfl
  have hblank : scanToken '\n' ([] ++ ['"', 'ß', '"']) = .ok (.space, 1) := rfl
  have hname : scanToken '"' (['ß', '"'] ++ []) = .ok (.other, 3) := rfl
  exact .cons hstring (.cons hsign (.cons hblank (.cons hname .nil)))

theorem offsets_of_statements_longText :
    ∃ found, tokens longText.toList = .ok found ∧ ∃ run ∈ (runs found).filter isStatement,
      ∃ first last, run.head? = some first ∧ run.getLast? = some last ∧
        let offset := offsetOf (lineStarts longText.toList) longText.toList
        (⟨offset first.start⟩ : String.Pos.Raw).IsValid longText ∧
          (⟨offset last.stop⟩ : String.Pos.Raw).IsValid longText ∧
          offset first.start ≤ offset last.stop := by
  have htokens : tokens longText.toList = .ok (placed .start (joined longRuns)) :=
    cuts_longRuns.tokensFrom_eq .start
  have hrun : placed ⟨2, 4⟩ longRuns[1] ∈
      (runs (placed .start (joined longRuns))).filter isStatement := by
    rw [runs_placed_joined .start (by decide) (by decide)]
    decide
  obtain ⟨-, hstatements⟩ := offsets_of_statements
  exact ⟨_, htokens, _, hrun, hstatements _ _ htokens _ hrun⟩

end Sql

end MetricCatalog
