/-
# Idle texts

White space and comments are nothing to run. A text consists of them just when
every token the lexer takes from it is space. A comment to the end of its line
may reach beyond the text, which is why the end of a text counts here.
-/

import MetricCatalog.Proofs.Sql.Enclosed
import MetricCatalog.Proofs.Sql.Extent

namespace MetricCatalog

namespace Sql

open Text

/-! ## White space -/

/-- No sign, digit or letter of the ASCII half is white space. -/
theorem toNat_of_isBlank {c : Char} (hc : isBlank c = true) : c.toNat ≤ 32 ∨ 128 ≤ c.toNat := by
  have hapart : ∀ range ∈ blankTable.ranges, range.2 ≤ 32 ∨ 128 ≤ range.1 := by decide
  obtain ⟨range, hmem, hlow, hhigh⟩ := (CharRanges.contains_iff _ c).mp hc
  rcases hapart range hmem with hle | hle
  · exact Or.inl (Nat.le_trans hhigh hle)
  · exact Or.inr (Nat.le_trans hle hlow)

theorem isDigit_of_isBlank {c : Char} (hc : isBlank c = true) : isDigit c = false := by
  rw [← Bool.not_eq_true]
  intro hdigit
  obtain ⟨n, hn, rfl⟩ := exists_digitChar_of_isDigit hdigit
  interval_cases n <;> exact absurd hc (by decide)

theorem isAlphanum_of_isBlank {c : Char} (hc : isBlank c = true) (hascii : c.toNat < 128) :
    c.isAlphanum = false := by
  have hlow : c.toNat ≤ 32 := by
    have hrange := toNat_of_isBlank hc
    omega
  rw [← Char.ofNat_toNat c]
  generalize c.toNat = n at hlow
  interval_cases n <;> rfl

/-- White space is not in a table whose ranges stand apart from it. -/
theorem contains_of_isBlank {table : CharRanges}
    (hapart : ∀ blank ∈ blankTable.ranges, ∀ range ∈ table.ranges,
      blank.2 < range.1 ∨ range.2 < blank.1)
    {c : Char} (hc : isBlank c = true) : table.contains c = false := by
  obtain ⟨blank, hmem, hlow, hhigh⟩ := (CharRanges.contains_iff _ c).mp hc
  rw [← Bool.not_eq_true, CharRanges.contains_iff]
  rintro ⟨range, hrange, hfrom, hto⟩
  rcases hapart blank hmem range hrange with hlt | hlt <;> omega

theorem letterTable_of_isBlank {c : Char} (hc : isBlank c = true) :
    letterTable.contains c = false :=
  contains_of_isBlank (by decide +kernel) hc

theorem isLetter_of_isBlank {c : Char} (hc : isBlank c = true) : isLetter c = false := by
  rw [isLetter]
  split
  · rename_i hascii
    have halphanum := isAlphanum_of_isBlank hc hascii
    rw [Char.isAlphanum, Bool.or_eq_false_iff] at halphanum
    exact halphanum.1
  · exact letterTable_of_isBlank hc

theorem ne_of_isBlank {c d : Char} (hc : isBlank c = true) (hd : isBlank d = false) : c ≠ d := by
  rintro rfl
  rw [hc] at hd
  cases hd

theorem scanToken_blank {c : Char} (hc : isBlank c = true) (rest : List Char) :
    scanToken c rest = .ok (.space, 1) ∨
      ∃ more, rest = '\n' :: more ∧ scanToken c rest = .ok (.space, 2) := by
  have hnumber : ¬ (isDigit c || c = '.') = true := by
    simp [isDigit_of_isBlank hc, ne_of_isBlank hc (d := '.') (by decide)]
  have hword : ¬ isWordStart c = true := by
    simp [isWordStart, isLetter_of_isBlank hc, ne_of_isBlank hc (d := '_') (by decide),
      ne_of_isBlank hc (d := '#') (by decide), ne_of_isBlank hc (d := '@') (by decide)]
  cases opening c rest with
  | feed more => exact Or.inr ⟨more, rfl, rfl⟩
  | plain hplain =>
      rw [hplain.scanToken_eq, plainToken, if_neg hnumber, if_neg hword, if_pos hc]
      exact Or.inl rfl
  | _ => exact absurd hc (by decide)

/-- No plain token is a semicolon, and if it is a space it is a single character. -/
theorem plainToken_kind {c : Char} {rest : List Char} {kind : TokenKind} {n : Nat}
    (hscan : plainToken c rest = .ok (kind, n)) :
    kind = .other ∨ kind = .space ∧ isBlank c = true ∧ n = 1 := by
  unfold plainToken at hscan
  split at hscan
  · cases hscan
    exact Or.inl rfl
  · split at hscan
    · exact Or.inl (map_kind_eq_ok hscan).1.symm
    · split at hscan
      · rename_i hblank
        cases hscan
        exact Or.inr ⟨rfl, hblank, rfl⟩
      · cases hscan
        exact Or.inl rfl

theorem scanToken_semicolon {c : Char} {rest : List Char} {n : Nat}
    (hscan : scanToken c rest = .ok (.semicolon, n)) : c = ';' ∧ n = 1 := by
  cases opening c rest with
  | semicolon =>
      cases hscan
      exact ⟨rfl, rfl⟩
  | feed | dashes | questionMark => cases hscan
  | plain hplain =>
      rcases plainToken_kind (hplain.scanToken_eq.symm.trans hscan) with hkind | ⟨hkind, -⟩
      · cases hkind
      · cases hkind
  | _ => exact absurd (map_kind_eq_ok hscan).1 (by decide)

/-- A comment to the end of its line is taken with the line feed, if there is one. -/
theorem enclosed_dashes {body rest more : List Char} {n : Nat}
    (hscan : scanToken '-' ('-' :: more) = .ok (.space, n)) (hmore : body ++ rest = '-' :: more)
    (hn : n = body.length + 1) : Enclosed .space ('-' :: body) rest := by
  have hline : '\n' ∉ more.takeWhile (fun c => c ≠ '\n') := fun hmem => by
    simpa using List.all_eq_true.mp List.all_takeWhile _ hmem
  have hsplit := List.takeWhile_append_dropWhile (p := fun c => c ≠ '\n') (l := more)
  have hhead : ∀ c ∈ (more.dropWhile fun c => c ≠ '\n').head?, c = '\n' := fun c hc => by
    have hstop := List.head?_dropWhile_not (fun c : Char => c ≠ '\n') more
    rw [hc] at hstop
    simpa using hstop
  generalize more.takeWhile (fun c => c ≠ '\n') = line at *
  generalize more.dropWhile (fun c => c ≠ '\n') = left at *
  subst hsplit
  rw [scanToken_dashes hline hhead] at hscan
  cases left with
  | nil =>
      rw [if_pos rfl] at hscan
      cases hscan
      obtain ⟨rfl, rfl⟩ := List.append_inj (show body ++ rest = ('-' :: line) ++ [] from hmore)
        (by rw [List.length_cons]; omega)
      exact .lastLine hline
  | cons c after =>
      obtain rfl := hhead c rfl
      rw [if_neg (by simp)] at hscan
      cases hscan
      have hparts : body ++ rest = ('-' :: (line ++ ['\n'])) ++ after := by
        rw [hmore, List.cons_append, List.append_assoc]
        rfl
      obtain ⟨rfl, rfl⟩ := List.append_inj hparts (by simp; omega)
      exact .line hline _

theorem enclosed_comment {body rest more : List Char} {m : Nat}
    (hlength : commentLength 1 ' ' more = some m) (hmore : body ++ rest = '*' :: more)
    (hm : m + 2 = body.length + 1) : Enclosed .space ('/' :: body) rest := by
  have hbound := commentLength_fits _ _ _ m hlength
  have hparts : body ++ rest = ('*' :: more.take m) ++ more.drop m := by
    rw [hmore, List.cons_append, List.take_append_drop]
  obtain ⟨rfl, -⟩ := List.append_inj hparts (by rw [List.length_cons, List.length_take]; omega)
  exact .block (closes_of_commentLength hlength Nat.one_pos) rest

/-- What the lexer takes for space is white space or a comment. -/
theorem scanToken_space {c : Char} {body rest : List Char}
    (hscan : scanToken c (body ++ rest) = .ok (.space, body.length + 1)) :
    (isBlank c = true ∧ body = []) ∨ (c = '\r' ∧ body = ['\n']) ∨
      Enclosed .space (c :: body) rest := by
  generalize hmore : body ++ rest = more at hscan
  generalize hn : body.length + 1 = n at hscan
  cases opening c more with
  | feed after =>
      cases hscan
      have hparts : body ++ rest = ['\n'] ++ after := hmore
      obtain ⟨rfl, -⟩ := List.append_inj hparts (by simpa using hn)
      exact Or.inr (Or.inl ⟨rfl, rfl⟩)
  | dashes => exact Or.inr (Or.inr (enclosed_dashes hscan hmore hn.symm))
  | comment after =>
      cases hlength : commentLength 1 ' ' after with
      | none => simp [scanToken, hlength, orFault, Except.map] at hscan
      | some m =>
          have hm : m + 2 = n := by
            simpa [scanToken, hlength, orFault, Except.map] using hscan
          exact Or.inr (Or.inr (enclosed_comment hlength hmore (hm.trans hn.symm)))
  | plain hplain =>
      rcases plainToken_kind (hplain.scanToken_eq.symm.trans hscan) with hkind | ⟨-, hblank, rfl⟩
      · cases hkind
      · exact Or.inl ⟨hblank, List.length_eq_zero_iff.mp (by omega)⟩
  | semicolon | questionMark => cases hscan
  | _ => exact absurd (map_kind_eq_ok hscan).1 (by decide)

/-! ## Idle texts -/

/-- The text of some tokens, one behind the other. -/
def textOf (pieces : List Piece) : List Char := pieces.flatMap (·.text)

/-- There is nothing but white space and comments in a text. -/
inductive IsIdle : List Char → Prop
  | nil : IsIdle []
  | blank {c : Char} {rest : List Char} (hc : isBlank c = true) (hrest : IsIdle rest) :
      IsIdle (c :: rest)
  | comment {comment rest : List Char} (hcomment : Enclosed .space comment rest)
      (hrest : IsIdle rest) : IsIdle (comment ++ rest)

/-- A comment stays one when what follows it is cut short. -/
theorem Enclosed.shorten {comment first second : List Char}
    (hcomment : Enclosed .space comment (first ++ second)) : Enclosed .space comment first := by
  generalize hafter : first ++ second = after at hcomment
  cases hcomment with
  | line hbody _ => exact .line hbody first
  | lastLine hbody =>
      rw [(List.append_eq_nil_iff.mp hafter).1]
      exact .lastLine hbody
  | block hbody _ => exact .block hbody first

/-- A comment with an end of its own stays one whatever follows. -/
theorem Enclosed.cases_space {comment rest : List Char} (hcomment : Enclosed .space comment rest) :
    (∀ after, Enclosed .space comment after) ∨
      rest = [] ∧ ∃ line, comment = '-' :: '-' :: line ∧ '\n' ∉ line := by
  cases hcomment with
  | line hbody _ => exact Or.inl fun after => .line hbody after
  | lastLine hbody => exact Or.inr ⟨rfl, _, rfl, hbody⟩
  | block hbody _ => exact Or.inl fun after => .block hbody after

theorem not_enclosed_blank {c : Char} (hc : isBlank c = true) {body rest : List Char} :
    ¬ Enclosed .space (c :: body) rest := by
  intro hcomment
  cases hcomment <;> exact absurd hc (by decide)

theorem IsIdle.of_blank {c : Char} {rest : List Char} (hc : isBlank c = true)
    (hidle : IsIdle (c :: rest)) : IsIdle rest := by
  generalize htext : c :: rest = text at hidle
  cases hidle with
  | nil => cases htext
  | blank _ hrest =>
      obtain ⟨rfl, rfl⟩ := List.cons.inj htext
      exact hrest
  | comment hcomment _ =>
      obtain ⟨d, body, rfl, -⟩ := hcomment.scanToken_eq
      obtain ⟨rfl, -⟩ := List.cons.inj htext
      exact absurd hcomment (not_enclosed_blank hc)

/-- What the lexer takes from the start of an idle text is space, and leaves an idle text. -/
theorem IsIdle.first_token {c : Char} {body rest after : List Char} {kind : TokenKind}
    (hidle : IsIdle (c :: (body ++ rest)))
    (hscan : scanToken c (body ++ (rest ++ after)) = .ok (kind, body.length + 1)) :
    kind = .space ∧ IsIdle rest := by
  generalize htext : c :: (body ++ rest) = text at hidle
  cases hidle with
  | nil => cases htext
  | @blank d left hblank hleft =>
      obtain ⟨rfl, hbody⟩ := List.cons.inj htext
      rcases scanToken_blank hblank (body ++ (rest ++ after)) with hone | ⟨more, hmore, htwo⟩
      · obtain ⟨rfl, hlength⟩ := Prod.mk.inj (Except.ok.inj (hscan.symm.trans hone))
        obtain rfl : body = [] := List.length_eq_zero_iff.mp (by omega)
        exact ⟨rfl, by rwa [← hbody] at hleft⟩
      · obtain ⟨rfl, hlength⟩ := Prod.mk.inj (Except.ok.inj (hscan.symm.trans htwo))
        obtain ⟨e, rfl⟩ := List.length_eq_one_iff.mp (show body.length = 1 by omega)
        obtain rfl : e = '\n' := (List.cons.inj hmore).1
        rw [← hbody] at hleft
        exact ⟨rfl, hleft.of_blank (by decide)⟩
  | @comment comment left hcomment hleft =>
      rcases hcomment.cases_space with hall | ⟨rfl, line, rfl, hline⟩
      · obtain ⟨d, front, rfl, hfound⟩ := (hall (left ++ after)).scanToken_eq
        obtain ⟨rfl, hbody⟩ := List.cons.inj htext
        change body ++ rest = front ++ left at hbody
        rw [← List.append_assoc, ← hbody, List.append_assoc] at hfound
        obtain ⟨rfl, hlength⟩ := Prod.mk.inj (Except.ok.inj (hscan.symm.trans hfound))
        obtain ⟨-, rfl⟩ := List.append_inj hbody (by omega)
        exact ⟨rfl, hleft⟩
      · rw [List.append_nil] at htext
        obtain ⟨rfl, hbody⟩ := List.cons.inj htext
        -- the comment goes on behind the idle text, up to the end of the line
        have hmore : body ++ (rest ++ after) = '-' :: (line ++ after) := by
          rw [← List.append_assoc, hbody, List.cons_append]
        have hspace : ∃ n, scanToken '-' ('-' :: (line ++ after)) = .ok (.space, n) := ⟨_, rfl⟩
        obtain ⟨n, hspace⟩ := hspace
        rw [hmore] at hscan
        obtain ⟨rfl, hn⟩ := Prod.mk.inj (Except.ok.inj (hscan.symm.trans hspace))
        have hwhole := enclosed_dashes hspace hmore hn.symm
        generalize hstop : rest ++ after = stop at hwhole
        refine ⟨rfl, ?_⟩
        cases hwhole with
        | @line front _ _ =>
            refine absurd ?_ hline
            have hmem : '\n' ∈ '-' :: line := by
              rw [← hbody]
              simp
            exact (List.mem_cons.mp hmem).resolve_left (by decide)
        | lastLine _ =>
            rw [(List.append_eq_nil_iff.mp hstop).1]
            exact .nil

theorem isIdle_textOf {run more : List Piece} {text : List Char} (hcuts : Cuts (run ++ more) text)
    (hspace : ∀ piece ∈ run, piece.kind = .space) : IsIdle (textOf run) := by
  induction run generalizing text with
  | nil => exact .nil
  | cons piece run ih =>
      rw [List.cons_append] at hcuts
      cases hcuts with
      | @cons kind c body rest _ hscan hrest =>
          obtain rfl : kind = .space := hspace _ List.mem_cons_self
          have hidle := ih hrest fun other hother => hspace other (List.mem_cons_of_mem _ hother)
          show IsIdle (c :: (body ++ textOf run))
          rcases scanToken_space hscan with ⟨hc, rfl⟩ | ⟨rfl, rfl⟩ | hcomment
          · exact .blank hc hidle
          · exact .blank (by decide) (.blank (by decide) hidle)
          · rw [← hrest.flatMap_text, List.flatMap_append] at hcomment
            exact .comment hcomment.shorten hidle

theorem IsIdle.kind_eq {run more : List Piece} {text : List Char}
    (hidle : IsIdle (textOf run)) (hcuts : Cuts (run ++ more) text) :
    ∀ piece ∈ run, piece.kind = .space := by
  induction run generalizing text with
  | nil => exact fun piece hpiece => by cases hpiece
  | cons piece run ih =>
      rw [List.cons_append] at hcuts
      cases hcuts with
      | @cons kind c body rest _ hscan hrest =>
          rw [← hrest.flatMap_text, List.flatMap_append] at hscan
          change IsIdle (c :: (body ++ textOf run)) at hidle
          obtain ⟨rfl, hleft⟩ := hidle.first_token hscan
          intro other hother
          rcases List.mem_cons.mp hother with rfl | hother
          · rfl
          · exact ih hleft hrest other hother

end Sql

end MetricCatalog
