/-
# Tokens at the end of a text

The first token of a text stays the same when the text is cut off behind it in
front of a semicolon or white space. Few tokens reach across such a cut: a sign
that takes any character into its word, a comment to the end of its line, and a
carriage return. Of these, what is left in front of the cut is again one token,
and a newline behind the text goes into it.
-/

import MetricCatalog.Proofs.Sql.Cutoff
import MetricCatalog.Proofs.Text.Blank

namespace MetricCatalog

namespace Sql

open Text

variable {c : Char} {text after : List Char} {kind : TokenKind} {n : Nat}

/-! ## Tokens that no cut concerns -/

/-- The token at the start of a text may go on with what stands behind the text, though that is
white space: a sign takes the next character into a word, and a comment goes on to the end of the
line. -/
def GoesOn (c : Char) (text : List Char) : Prop :=
  c = '@' ∨ c = '#' ∨ (c = '-' ∧ text.head? = some '-') ∨ (c = '\r' ∧ text = [])

theorem map_kind_iff {whole part : Scan} {bound : Nat}
    (hcut : upTo bound whole.toOption = part.toOption) {found kind : TokenKind} {n : Nat} :
    part.map (fun length => (found, length)) = .ok (kind, n) ↔
      whole.map (fun length => (found, length)) = .ok (kind, n) ∧ n ≤ bound := by
  have hmap : ∀ scan : Scan, scan.map (fun length => (found, length)) = .ok (kind, n) ↔
      found = kind ∧ scan.toOption = some n := by
    intro scan
    cases scan with
    | error fault => exact ⟨nofun, fun h => nomatch h.2⟩
    | ok m => simp [Except.map, Except.toOption]
  rw [hmap, hmap, ← hcut, upTo_eq_some, and_assoc]

theorem ok_kind_iff {found kind : TokenKind} {length n bound : Nat} (hle : length ≤ bound) :
    (Except.ok (found, length) : Except LexFault (TokenKind × Nat)) = .ok (kind, n) ↔
      (Except.ok (found, length) : Except LexFault (TokenKind × Nat)) = .ok (kind, n) ∧
        n ≤ bound := by
  refine ⟨fun hn => ⟨hn, ?_⟩, And.left⟩
  cases hn
  exact hle

theorem IsPlain.append (hplain : IsPlain c text) (hends : ¬ GoesOn c text) (hstops : Stops after) :
    IsPlain c (text ++ after) where
  sign := hplain.sign
  feed hfeed := by
    cases text with
    | nil => exact absurd (Or.inr (Or.inr (Or.inr ⟨hfeed, rfl⟩))) hends
    | cons d rest => exact hplain.feed hfeed
  dashes hdash := by
    rw [Ne, hstops.head?_append_iff (by decide) (by decide)]
    exact hplain.dashes hdash
  comment hslash := by
    rw [Ne, hstops.head?_append_iff (by decide) (by decide)]
    exact hplain.comment hslash

theorem plainToken_stops (hstops : Stops after) :
    plainToken c text = .ok (kind, n) ↔
      plainToken c (text ++ after) = .ok (kind, n) ∧ n ≤ text.length + 1 := by
  unfold plainToken
  rw [← List.cons_append, numberLength_stops hstops, operatorLength_stops hstops]
  split
  · exact ok_kind_iff (numberLength_le (c :: text))
  · split
    · exact map_kind_iff (upTo_scanLetter hstops c text)
    · split
      · exact ok_kind_iff (Nat.le_add_left 1 _)
      · exact ok_kind_iff (by have := (operatorLength_within c text).2; omega)

theorem scanToken_stops (hstops : Stops after) (hends : ¬ GoesOn c text) :
    scanToken c text = .ok (kind, n) ↔
      scanToken c (text ++ after) = .ok (kind, n) ∧ n ≤ text.length + 1 := by
  cases opening c text with
  | semicolon => exact ok_kind_iff (Nat.le_add_left 1 _)
  | feed => exact ok_kind_iff (by simp)
  | dashes => exact absurd (Or.inr (Or.inr (Or.inl ⟨rfl, rfl⟩))) hends
  | comment more =>
      apply map_kind_iff
      rw [toOption_orFault, toOption_orFault, ← upTo_commentLength 1 ' ' more after]
      exact upTo_map_add _ _ _
  | singleQuote =>
      exact map_kind_iff (upTo_scanString (hstops.head?_ne (by decide) (by decide)) 0 text)
  | doubleQuote =>
      apply map_kind_iff
      rw [toOption_orFault, toOption_orFault,
        ← upTo_quotedLength (hstops.head?_ne (by decide) (by decide)) text]
      exact upTo_map_add _ _ _
  | backtick =>
      apply map_kind_iff
      rw [toOption_orFault, toOption_orFault,
        ← upTo_quotedLength (hstops.head?_ne (by decide) (by decide)) text]
      exact upTo_map_add _ _ _
  | atSign => exact absurd (Or.inl rfl) hends
  | hash => exact absurd (Or.inr (Or.inl rfl)) hends
  | dollar => exact map_kind_iff (upTo_scanDollar hstops text)
  | questionMark =>
      have hwhole : scanToken '?' (text ++ after) = .ok (.other, 1 + runLength isNumber text) := by
        rw [← runLength_stops isSolid_isNumber hstops]
        rfl
      rw [hwhole]
      exact ok_kind_iff (by have := runLength_le isNumber text; omega)
  | plain hplain =>
      rw [hplain.scanToken_eq, (hplain.append hends hstops).scanToken_eq]
      exact plainToken_stops hstops

/-! ## Signs that start a word -/

/-- A rule for what stands behind a sign that takes most characters into a word. -/
structure StartsWord (scan : List Char → Scan) : Prop where
  within : ∀ text, Within 1 text (scan text)
  total : ∀ text, ∃ n, scan text = .ok n
  nil : scan [] = .ok 1
  /-- One character is taken, or all words take more. -/
  single : ∀ c, (scan [c] = .ok 2 ∧ ∀ rest n, scan (c :: rest) = .ok n → 2 ≤ n) ∨
    ∀ rest, scan (c :: rest) = .ok 1
  /-- Two characters decide what is taken. -/
  stops : ∀ c d rest after, Stops after → scan (c :: d :: rest ++ after) = scan (c :: d :: rest)
  newline : ∀ rest, scan ('\n' :: ';' :: rest) = .ok 2

theorem scanAt_cases (c : Char) :
    c = '>' ∨ c = '?' ∨ c = '@' ∨ c = ' ' ∨ ∀ rest, scanAt (c :: rest) = scanWord 2 rest := by
  by_cases hmore : c = '>' ∨ c = '?' ∨ c = '@' ∨ c = ' '
  · tauto
  · simp only [not_or] at hmore
    obtain ⟨hmore, hmark, hat, hblank⟩ := hmore
    refine Or.inr (Or.inr (Or.inr (Or.inr fun rest => ?_)))
    unfold scanAt
    split <;> simp_all

theorem scanAt_at_cases (c : Char) :
    c = ' ' ∨ ∀ rest, scanAt ('@' :: c :: rest) = scanWord 3 rest := by
  by_cases hblank : c = ' '
  · exact Or.inl hblank
  · exact Or.inr fun rest => by rw [scanAt]; exact hblank

theorem two_le_of_scanWord {before n : Nat} {text : List Char} (hbefore : 2 ≤ before)
    (hscan : scanWord before text = .ok n) : 2 ≤ n := by
  cases hscan
  exact Nat.le_trans hbefore (Nat.le_add_right _ _)

theorem startsWord_scanAt : StartsWord scanAt where
  within := scanAt_within
  total text := by
    unfold scanAt
    split <;> exact ⟨_, rfl⟩
  nil := rfl
  single c := by
    have htwo : ∀ {n}, (Except.ok 2 : Scan) = .ok n → 2 ≤ n := by
      intro n h
      cases h
      exact Nat.le_refl 2
    rcases scanAt_cases c with rfl | rfl | rfl | rfl | hword
    · exact Or.inl ⟨rfl, fun _ _ => htwo⟩
    · exact Or.inl ⟨rfl, fun _ _ => htwo⟩
    · refine Or.inl ⟨rfl, fun rest n hn => ?_⟩
      cases rest with
      | nil => exact htwo hn
      | cons d rest =>
          rcases scanAt_at_cases d with rfl | hpair
          · exact htwo hn
          · exact two_le_of_scanWord (by decide) ((hpair rest).symm.trans hn)
    · exact Or.inr fun _ => rfl
    · refine Or.inl ⟨hword [], fun rest n hn => ?_⟩
      exact two_le_of_scanWord (Nat.le_refl 2) ((hword rest).symm.trans hn)
  stops c d rest after hstops := by
    rw [List.cons_append]
    rcases scanAt_cases c with rfl | rfl | rfl | rfl | hword
    · rfl
    · rfl
    · rw [List.cons_append]
      rcases scanAt_at_cases d with rfl | hpair
      · rfl
      · rw [hpair, hpair, scanWord_stops hstops]
    · rfl
    · rw [hword, hword, scanWord_stops hstops]
  newline _ := rfl

theorem scanHash_cases (c : Char) :
    c = '-' ∨ c = '>' ∨ c = ' ' ∨ ∀ rest, scanHash (c :: rest) = scanWord 2 rest := by
  by_cases hmore : c = '-' ∨ c = '>' ∨ c = ' '
  · tauto
  · simp only [not_or] at hmore
    obtain ⟨hdash, hmore, hblank⟩ := hmore
    refine Or.inr (Or.inr (Or.inr fun rest => ?_))
    unfold scanHash
    split <;> simp_all

theorem scanHash_more_cases (c : Char) :
    c = '>' ∨ ∀ rest, scanHash ('>' :: c :: rest) = .ok 2 := by
  by_cases hmore : c = '>'
  · exact Or.inl hmore
  · exact Or.inr fun rest => by rw [scanHash]; exact fun _ heq => hmore (List.cons.inj heq).1

theorem startsWord_scanHash : StartsWord scanHash where
  within := scanHash_within
  total text := by
    unfold scanHash
    split <;> exact ⟨_, rfl⟩
  nil := rfl
  single c := by
    rcases scanHash_cases c with rfl | rfl | rfl | hword
    · exact Or.inl ⟨rfl, fun _ _ hn => by cases hn; exact Nat.le_refl 2⟩
    · refine Or.inl ⟨rfl, fun rest n hn => ?_⟩
      cases rest with
      | nil => cases hn; exact Nat.le_refl 2
      | cons d rest =>
          rcases scanHash_more_cases d with rfl | hpair
          · cases hn
            exact Nat.le_succ 2
          · cases (hpair rest).symm.trans hn
            exact Nat.le_refl 2
    · exact Or.inr fun _ => rfl
    · refine Or.inl ⟨hword [], fun rest n hn => ?_⟩
      exact two_le_of_scanWord (Nat.le_refl 2) ((hword rest).symm.trans hn)
  stops c d rest after hstops := by
    rw [List.cons_append]
    rcases scanHash_cases c with rfl | rfl | rfl | hword
    · rfl
    · rw [List.cons_append]
      rcases scanHash_more_cases d with rfl | hpair
      · rfl
      · rw [hpair, hpair]
    · rfl
    · rw [hword, hword, scanWord_stops hstops]
  newline _ := rfl

namespace StartsWord

variable {scan : List Char → Scan}

/-- What is taken up to a cut is taken from the part, or the whole of the part is. -/
theorem part (hscan : StartsWord scan) (hstops : Stops after) (text : List Char) :
    scan (text ++ after) = scan text ∨
      scan text = .ok (text.length + 1) ∧ ∀ n, scan (text ++ after) = .ok n → text.length < n := by
  match text with
  | [] => exact Or.inr ⟨hscan.nil, fun n hn => (hscan.within _ n hn).1⟩
  | [c] =>
      rcases hscan.single c with ⟨htwo, hmore⟩ | hone
      · exact Or.inr ⟨htwo, fun n hn => hmore _ n hn⟩
      · exact Or.inl ((hone _).trans (hone []).symm)
  | c :: d :: rest => exact Or.inl (hscan.stops c d rest after hstops)

/-- A newline in front of a semicolon is the last thing that is taken. -/
theorem newline_le (hscan : StartsWord scan) (text rest : List Char) :
    ∃ n, scan (text ++ '\n' :: ';' :: rest) = .ok n ∧ n ≤ text.length + 2 := by
  cases text with
  | nil => exact ⟨2, hscan.newline rest, Nat.le_refl 2⟩
  | cons c text =>
      obtain ⟨n, hn⟩ := hscan.total (c :: text ++ ['\n'])
      have hpart : scan (c :: text ++ '\n' :: ';' :: rest) = scan (c :: text ++ ['\n']) := by
        cases text with
        | nil => exact hscan.stops c '\n' [] _ (stops_semicolon rest)
        | cons d text =>
            have hstops := hscan.stops c d (text ++ ['\n']) _ (stops_semicolon rest)
            simpa using hstops
      have hle := (hscan.within _ n hn).2
      rw [List.length_append, List.length_singleton] at hle
      exact ⟨n, hpart.trans hn, by omega⟩

end StartsWord

/-! ## A token in front of a cut -/

theorem StartsWord.map_part {scan : List Char → Scan} (hscan : StartsWord scan)
    (hstops : Stops after) (hn : n ≤ text.length + 1)
    (hwhole : (scan (text ++ after)).map (fun length => (TokenKind.other, length)) =
      .ok (kind, n)) :
    (scan text).map (fun length => (TokenKind.other, length)) = .ok (kind, n) := by
  obtain ⟨rfl, hlength⟩ := map_kind_eq_ok hwhole
  rcases hscan.part hstops text with hsame | ⟨hall, hbeyond⟩
  · rw [← hsame, hlength]
    rfl
  · obtain rfl : n = text.length + 1 := Nat.le_antisymm hn (hbeyond n hlength)
    rw [hall]
    rfl

/-- Two dashes start a comment, wherever it ends. -/
theorem scanToken_dash_dash {more body rest : List Char}
    (hscan : scanToken '-' ('-' :: more) = .ok (kind, body.length + 1))
    (hmore : body ++ rest = '-' :: more) : kind = .space ∧ Enclosed .space ('-' :: body) rest := by
  obtain ⟨m, hm⟩ : ∃ m, scanToken '-' ('-' :: more) = .ok (.space, m) := ⟨_, rfl⟩
  obtain ⟨rfl, -⟩ := Prod.mk.inj (Except.ok.inj (hscan.symm.trans hm))
  exact ⟨rfl, enclosed_dashes hscan hmore rfl⟩

theorem exists_body_of_le (hpos : 1 ≤ n) (hn : n ≤ text.length + 1) :
    ∃ body rest, body ++ rest = text ∧ n = body.length + 1 := by
  refine ⟨_, _, List.take_append_drop (n - 1) text, ?_⟩
  rw [List.length_take]
  omega

theorem exists_body_of_scanToken (hscan : scanToken c text = .ok (kind, n)) :
    ∃ body rest, body ++ rest = text ∧ n = body.length + 1 :=
  exists_body_of_le (scanToken_within hscan).1
    (Nat.le_trans (scanToken_within hscan).2 (Nat.le_of_eq (Nat.add_comm 1 _)))

theorem scanToken_part (hstops : Stops after)
    (hscan : scanToken c (text ++ after) = .ok (kind, n)) (hn : n ≤ text.length + 1) :
    scanToken c text = .ok (kind, n) := by
  by_cases hplain : GoesOn c text
  · rcases hplain with rfl | rfl | ⟨rfl, hdash⟩ | ⟨rfl, rfl⟩
    · exact startsWord_scanAt.map_part hstops hn hscan
    · exact startsWord_scanHash.map_part hstops hn hscan
    · obtain ⟨more, rfl⟩ := List.head?_eq_some_iff.mp hdash
      obtain ⟨body, rest, hsplit, rfl⟩ := exists_body_of_le (scanToken_within hscan).1 hn
      obtain ⟨rfl, hcomment⟩ := scanToken_dash_dash hscan
        (show body ++ (rest ++ after) = _ by rw [← List.append_assoc, hsplit]; rfl)
      obtain ⟨d, front, hfront, hpart⟩ := hcomment.shorten.scanToken_eq
      obtain ⟨rfl, rfl⟩ := List.cons.inj hfront
      rw [← hsplit, hpart]
    · rcases scanToken_blank (c := '\r') (by decide) after with hone | ⟨-, -, htwo⟩
      · obtain ⟨rfl, rfl⟩ := Prod.mk.inj (Except.ok.inj (hscan.symm.trans hone))
        rfl
      · obtain ⟨rfl, rfl⟩ := Prod.mk.inj (Except.ok.inj (hscan.symm.trans htwo))
        exact absurd hn (by decide)
  · exact (scanToken_stops hstops hplain).mpr ⟨hscan, hn⟩

/-! ## A token in front of a newline -/

theorem StartsWord.map_newline {scan : List Char → Scan} (hscan : StartsWord scan)
    (hpart : (scan text).map (fun length => (TokenKind.other, length)) = .ok (kind, n))
    (rest : List Char) :
    let whole := (scan (text ++ '\n' :: ';' :: rest)).map fun length => (TokenKind.other, length)
    whole = .ok (kind, n) ∨
      kind ≠ .semicolon ∧ n = text.length + 1 ∧ whole = .ok (kind, n + 1) := by
  obtain ⟨rfl, hlength⟩ := map_kind_eq_ok hpart
  rcases hscan.part (stops_blank (c := '\n') (by decide) (';' :: rest)) text with
    hsame | ⟨hall, hbeyond⟩
  · exact Or.inl (by rw [hsame, hpart])
  · obtain ⟨m, hm, hle⟩ := hscan.newline_le text rest
    have hlt := hbeyond m hm
    rw [hall] at hlength
    cases hlength
    obtain rfl | rfl : m = text.length + 1 ∨ m = text.length + 1 + 1 := by omega
    · exact Or.inl (by rw [hm]; rfl)
    · exact Or.inr ⟨by decide, rfl, by rw [hm]; rfl⟩

/-- A newline in front of a semicolon goes into the last token of a text, or it changes none. -/
theorem scanToken_newline (hscan : scanToken c text = .ok (kind, n)) (rest : List Char) :
    scanToken c (text ++ '\n' :: ';' :: rest) = .ok (kind, n) ∨
      kind ≠ .semicolon ∧ n = text.length + 1 ∧
        scanToken c (text ++ '\n' :: ';' :: rest) = .ok (kind, n + 1) := by
  by_cases hplain : GoesOn c text
  · rcases hplain with rfl | rfl | ⟨rfl, hdash⟩ | ⟨rfl, rfl⟩
    · exact startsWord_scanAt.map_newline hscan rest
    · exact startsWord_scanHash.map_newline hscan rest
    · obtain ⟨more, rfl⟩ := List.head?_eq_some_iff.mp hdash
      obtain ⟨body, left, hsplit, rfl⟩ := exists_body_of_scanToken hscan
      obtain ⟨rfl, hcomment⟩ := scanToken_dash_dash hscan hsplit
      rcases hcomment.cases_space with hall | ⟨rfl, line, hline, hbody⟩
      · obtain ⟨d, front, hfront, hwhole⟩ := (hall (left ++ '\n' :: ';' :: rest)).scanToken_eq
        obtain ⟨rfl, rfl⟩ := List.cons.inj hfront
        rw [← hsplit, List.append_assoc]
        exact Or.inl hwhole
      · obtain ⟨-, rfl⟩ := List.cons.inj hline
        obtain ⟨d, front, hfront, hwhole⟩ := (Enclosed.line hbody (';' :: rest)).scanToken_eq
        obtain ⟨rfl, rfl⟩ := List.cons.inj hfront
        refine Or.inr ⟨by decide, ?_, ?_⟩
        · rw [← hsplit, List.append_nil]
        · rw [← hsplit]
          simpa using hwhole
    · cases (show scanToken '\r' [] = .ok (.space, 1) from rfl).symm.trans hscan
      exact Or.inr ⟨by decide, rfl, rfl⟩
  · have hle := (scanToken_within hscan).2
    have hstops := stops_blank (c := '\n') (by decide) (';' :: rest)
    exact Or.inl ((scanToken_stops hstops hplain).mp hscan).1

/-! ## A token that ends with white space -/

theorem EndsWith.map_ne_ok {sign : Char} {scan : Scan}
    (hends : EndsWith sign (c :: text) scan.toOption) (hsign : isBlank sign = false) {m : Nat}
    {d : Char} (hd : text[m]? = some d) (hblank : isBlank d = true) :
    scan.map (fun length => (TokenKind.other, length)) ≠ .ok (.other, m + 2) := by
  intro hmap
  obtain ⟨k, hk, hlast⟩ := hends _ (toOption_eq_some.mpr (map_kind_eq_ok hmap).2)
  obtain rfl : k = m + 1 := by omega
  rw [List.getElem?_cons_succ, hd] at hlast
  cases hlast
  rw [hblank] at hsign
  cases hsign

/-- A string behind a dollar ends with one; a placeholder goes on as long as there are letters. -/
theorem scanDollar_cases (text : List Char) :
    scanDollar text =
      .ok ((text.takeWhile fun c => isLetterOrNumber c || c = '_').length + 1) ∨
    EndsWith '$' ('$' :: text) (scanDollar text).toOption := by
  unfold scanDollar
  split
  · rename_i rest
    rw [toOption_orFault]
    exact Or.inr (EndsWith.of_drop (k := 2) (dollarLength_endsWith rest))
  · simp only
    split
    · rename_i rest hrest
      rw [toOption_orFault]
      refine Or.inr (EndsWith.of_drop ?_)
      rw [List.drop_succ_cons, ← List.drop_drop, hrest]
      exact taggedLength_endsWith _ rest
    · exact Or.inl rfl

theorem ok_other_ne {length bound : Nat} (hle : length ≤ bound + 1) :
    (Except.ok (TokenKind.other, length) : Except LexFault (TokenKind × Nat)) ≠
      .ok (.other, bound + 2) := by
  intro heq
  cases heq
  omega

theorem plainToken_last_blank {d : Char} (hblank : isBlank d = true) {front rest : List Char} :
    plainToken c (front ++ d :: rest) ≠ .ok (.other, front.length + 2) := by
  have hstops := stops_blank hblank rest
  unfold plainToken
  rw [← List.cons_append, numberLength_stops hstops, operatorLength_stops hstops]
  split
  · exact ok_other_ne (numberLength_le (c :: front))
  · split
    · rcases scanLetter_cases c (front ++ d :: rest) with hrun | ⟨quote, hquote, hends⟩
      · rw [hrun, scanWord, runLength_stops isSolid_isWordPart hstops]
        exact ok_other_ne (by have := runLength_le isWordPart front; omega)
      · exact hends.map_ne_ok hquote (by simp) hblank
    · split
      · intro heq
        cases heq
      · exact ok_other_ne (by have := (operatorLength_within c front).2; omega)

/-- A token that is no space ends with white space only if it starts with one of the signs that
take any character. -/
theorem scanToken_last_blank {d : Char} (hblank : isBlank d = true) {front rest : List Char}
    (hat : c ≠ '@') (hhash : c ≠ '#') :
    scanToken c (front ++ d :: rest) ≠ .ok (.other, front.length + 2) := by
  have hd : (front ++ d :: rest)[front.length]? = some d := by simp
  have hstops := stops_blank hblank rest
  have hmark := runLength_stops isSolid_isNumber hstops front
  have htag := takeWhile_stops isSolid_isTagPart hstops front
  have hplainly : plainToken c (front ++ d :: rest) ≠ .ok (.other, front.length + 2) :=
    plainToken_last_blank hblank
  generalize front ++ d :: rest = text at *
  cases opening c text with
  | semicolon | feed | dashes =>
      intro heq
      cases heq
  | comment more => exact fun hmap => absurd (map_kind_eq_ok hmap).1 (by decide)
  | singleQuote =>
      have hends : EndsWith '\'' ('\'' :: text) (scanString '\'' 0 text).toOption := by
        rw [scanString, toOption_orFault]
        exact EndsWith.of_drop (k := 1) (quotedLength_endsWith '\'' text)
      exact hends.map_ne_ok (by decide) hd hblank
  | doubleQuote =>
      apply EndsWith.map_ne_ok (c := '"') _ (by decide : isBlank '"' = false) hd hblank
      rw [toOption_orFault]
      exact EndsWith.of_drop (k := 1) (quotedLength_endsWith '"' text)
  | backtick =>
      apply EndsWith.map_ne_ok (c := '\x60') _ (by decide : isBlank '\x60' = false) hd hblank
      rw [toOption_orFault]
      exact EndsWith.of_drop (k := 1) (quotedLength_endsWith '\x60' text)
  | atSign => exact absurd rfl hat
  | hash => exact absurd rfl hhash
  | dollar =>
      rcases scanDollar_cases text with hrun | hends
      · rw [scanToken, hrun, htag]
        exact ok_other_ne (Nat.succ_le_succ (List.takeWhile_prefix _).length_le)
      · exact hends.map_ne_ok (by decide) hd hblank
  | questionMark =>
      rw [scanToken, hmark]
      exact ok_other_ne (by have := runLength_le isNumber front; omega)
  | plain hplain =>
      rw [hplain.scanToken_eq]
      exact hplainly

theorem StartsWord.map_cut {scan : List Char → Scan} (hscan : StartsWord scan)
    (hstops : Stops after) (hn : text.length + 1 < n)
    (hwhole : (scan (text ++ after)).map (fun length => (TokenKind.other, length)) =
      .ok (kind, n)) :
    (scan text).map (fun length => (TokenKind.other, length)) = .ok (kind, text.length + 1) := by
  obtain ⟨rfl, hlength⟩ := map_kind_eq_ok hwhole
  rcases hscan.part hstops text with hsame | ⟨hall, -⟩
  · have hle := (hscan.within text n (hsame.symm.trans hlength)).2
    omega
  · rw [hall]
    rfl

theorem enclosed_line_part {front back body : List Char} (hbody : '\n' ∉ body)
    (hblank : ∀ d ∈ back, isBlank d = true) (hparts : front ++ back = '-' :: body) :
    Enclosed .space ('-' :: front) [] := by
  cases front with
  | nil => exact absurd (hblank '-' (by rw [List.nil_append] at hparts; simp [hparts])) (by decide)
  | cons d line =>
      obtain ⟨rfl, rfl⟩ := List.cons.inj hparts
      exact .lastLine fun hmem => hbody (List.mem_append_left back hmem)

/-- A comment with white space at its end goes to the end of a line, or to the end of the text. -/
theorem Enclosed.cut {front back rest : List Char} {last : Char}
    (hcomment : Enclosed .space (c :: (front ++ (back ++ [last]))) rest)
    (hblank : ∀ d ∈ back ++ [last], isBlank d = true) : Enclosed .space (c :: front) [] := by
  generalize hshield : c :: (front ++ (back ++ [last])) = shield at hcomment
  cases hcomment with
  | line hbody _ =>
      obtain ⟨rfl, hparts⟩ := List.cons.inj hshield
      rw [← List.append_assoc, ← List.cons_append] at hparts
      exact enclosed_line_part hbody (fun d hd => hblank d (List.mem_append_left _ hd))
        (List.append_inj' hparts rfl).1
  | lastLine hbody =>
      obtain ⟨rfl, hparts⟩ := List.cons.inj hshield
      exact enclosed_line_part hbody hblank hparts
  | @block body hbody _ =>
      have hlength := hbody.commentLength_append Nat.one_pos []
      obtain ⟨m, hm, hslash⟩ := commentLength_endsWith 1 ' ' (body ++ []) _ hlength
      rw [List.append_nil] at hslash
      obtain ⟨inner, rfl⟩ : ∃ inner, body = inner ++ ['/'] := by
        rw [← List.getLast?_eq_some_iff, List.getLast?_eq_getElem?, hm, Nat.add_sub_cancel, hslash]
      have hends := (List.cons.inj hshield).2
      rw [← List.append_assoc, ← List.cons_append] at hends
      obtain ⟨rfl, -⟩ := List.cons.inj (List.append_inj' hends rfl).2
      exact absurd (hblank '/' (by simp)) (by decide)

/-- Of a token that a cut in white space goes through, a whole token is left. -/
theorem scanToken_cut {front back rest : List Char} (hsolid : EndsSolid (c :: front))
    (hsome : back ≠ []) (hblank : ∀ d ∈ back, isBlank d = true)
    (hscan : scanToken c (front ++ (back ++ rest)) =
      .ok (kind, (front ++ back).length + 1)) :
    scanToken c front = .ok (kind, front.length + 1) := by
  obtain ⟨d, more, hback⟩ := List.exists_cons_of_ne_nil hsome
  have hstops : Stops (back ++ rest) := by
    rw [hback]
    exact stops_blank (hblank d (by simp [hback])) _
  have hlt : front.length + 1 < (front ++ back).length + 1 := by
    rw [hback]
    simp
  by_cases hat : c = '@'
  · subst hat
    exact startsWord_scanAt.map_cut hstops hlt hscan
  by_cases hhash : c = '#'
  · subst hhash
    exact startsWord_scanHash.map_cut hstops hlt hscan
  obtain ⟨init, last, rfl⟩ : ∃ init last, back = init ++ [last] :=
    ⟨_, _, (List.dropLast_append_getLast hsome).symm⟩
  have hlast := hblank last (by simp)
  cases kind with
  | semicolon =>
      have hone := (scanToken_semicolon hscan).2
      omega
  | other =>
      have hsplit : front ++ (init ++ [last] ++ rest) = (front ++ init) ++ last :: rest := by simp
      rw [hsplit, ← List.append_assoc, List.length_append] at hscan
      exact absurd hscan (scanToken_last_blank hlast hat hhash)
  | space =>
      rw [← List.append_assoc] at hscan
      rcases scanToken_space hscan with ⟨hc, hnil⟩ | ⟨rfl, hfeed⟩ | hcomment
      · exact absurd (List.append_eq_nil_iff.mp hnil).2 hsome
      · cases front with
        | nil =>
            obtain ⟨init, d, hend, hd⟩ := hsolid
            obtain ⟨-, hreturn⟩ := List.append_inj' (show [] ++ ['\r'] = init ++ [d] from hend) rfl
            cases hreturn
            exact absurd hd (by decide)
        | cons d front =>
            have hnil := List.append_eq_nil_iff.mp (List.cons.inj hfeed).2
            exact absurd hnil.2 hsome
      · obtain ⟨d, body, hbody, hpart⟩ := (hcomment.cut hblank).scanToken_eq
        obtain ⟨rfl, rfl⟩ := List.cons.inj hbody
        rwa [List.append_nil] at hpart

end Sql

end MetricCatalog
