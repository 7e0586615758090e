/-
# How far a token reaches

Whatever rule takes a token, the token has a character at least and ends inside
the text. The rules that count behind an opening answer with a length, the
others with the distance from the start of their token.
-/

import Mathlib.Data.List.Basic
import MetricCatalog.Sql.Lexer

namespace MetricCatalog

namespace Sql

open Text

/-- A rule takes no more than some number of characters. -/
def Fits (length : Option Nat) (bound : Nat) : Prop := ∀ n, length = some n → n ≤ bound

theorem fits_none (bound : Nat) : Fits none bound := by
  intro n hn
  cases hn

theorem fits_some {n bound : Nat} (hn : n ≤ bound) : Fits (some n) bound := by
  rintro m ⟨⟩
  exact hn

theorem Fits.map_add {length : Option Nat} {bound : Nat} (hfits : Fits length bound) (k : Nat) :
    Fits (length.map (· + k)) (bound + k) := by
  intro n hn
  obtain ⟨m, hm, rfl⟩ := Option.map_eq_some_iff.mp hn
  exact Nat.add_le_add_right (hfits m hm) k

theorem Fits.mono {length : Option Nat} {bound wider : Nat} (hfits : Fits length bound)
    (hle : bound ≤ wider) : Fits length wider :=
  fun n hn => Nat.le_trans (hfits n hn) hle

theorem runLength_le (isPart : Char → Bool) (text : List Char) :
    runLength isPart text ≤ text.length :=
  (List.takeWhile_sublist isPart).length_le

theorem quotedLength_fits (quote : Char) (text : List Char) :
    Fits (quotedLength quote text) text.length := by
  fun_induction quotedLength quote text with
  | case1 | case3 => exact fits_none _
  | case2 | case5 => exact fits_some (by simp)
  | case4 rest ih => exact ih.map_add 2
  | case6 c d rest _ ih => exact ih.map_add 1

theorem tripleLength_fits (quote : Char) (seen : Nat) (text : List Char) :
    Fits (tripleLength quote seen text) text.length := by
  fun_induction tripleLength quote seen text with
  | case1 => exact fits_none _
  | case2 => exact fits_some (by simp)
  | case3 _ _ _ ih => exact ih.map_add 1
  | case4 _ _ _ _ ih => exact ih.map_add 1

theorem commentLength_fits (nested : Nat) (last : Char) (text : List Char) :
    Fits (commentLength nested last text) text.length := by
  fun_induction commentLength nested last text with
  | case1 => exact fits_none _
  | case3 => exact fits_some (by simp)
  | case2 _ _ _ _ _ ih | case4 _ _ _ _ _ _ _ ih | case5 _ _ _ _ _ _ ih => exact ih.map_add 1

theorem dollarLength_fits (text : List Char) : Fits (dollarLength text) text.length := by
  fun_induction dollarLength text with
  | case1 | case2 => exact fits_none _
  | case3 => exact fits_some (by simp)
  | case4 c d rest _ ih => exact ih.map_add 1

/-- What is taken for a tag is there to be taken. -/
def TagMatch.FitsIn : TagMatch → Nat → Prop
  | .whole n, bound | .differs n, bound => n ≤ bound
  | .ended, _ => True

theorem matchTag_fits (tag text : List Char) : (matchTag tag text).FitsIn text.length := by
  fun_induction matchTag tag text with
  | case1 => exact Nat.zero_le _
  | case2 | case5 => trivial
  | case3 _ _ _ n hmatch ih | case4 _ _ _ n hmatch ih =>
      rw [hmatch] at ih
      exact Nat.succ_le_succ ih
  | case6 => exact Nat.succ_le_succ (Nat.zero_le _)

theorem taggedLength_fits (tag text : List Char) :
    Fits (taggedLength tag text) text.length := by
  fun_induction taggedLength tag text with
  | case1 | case2 => exact fits_none _
  | case3 rest n hmatch ih | case5 rest n hmatch _ ih =>
      have htag := matchTag_fits tag rest
      rw [hmatch] at htag
      change n ≤ rest.length at htag
      refine (ih.map_add (n + 1)).mono ?_
      rw [List.length_drop, List.length_cons]
      omega
  | case4 rest n hmatch hclose =>
      apply fits_some
      have hdrop : 0 < (rest.drop n).length := by
        cases hrest : rest.drop n with
        | nil => rw [hrest] at hclose; cases hclose
        | cons => simp
      rw [List.length_drop] at hdrop
      rw [List.length_cons]
      omega
  | case6 c rest _ ih => exact ih.map_add 1

theorem length_digitsUpTo_le (value? : Char → Option Nat) (limit : Nat) (text : List Char) :
    (digitsUpTo value? limit text).length ≤ text.length := by
  fun_induction digitsUpTo value? limit text with
  | case1 | case2 | case4 => simp
  | case3 _ _ _ _ _ ih => exact Nat.succ_le_succ ih

theorem codePointEscape?_fits (digits : Nat) (text : List Char) :
    Fits (codePointEscape? digits text) (text.length + 1) := by
  unfold codePointEscape?
  dsimp only
  split
  · exact fits_none _
  · rename_i hlength
    rw [List.length_take] at hlength
    split
    · split
      · exact fits_some (by omega)
      · exact fits_none _
    · exact fits_none _

theorem byteEscape?_fits (base : Nat) {length bound : Nat} (digits : List Nat)
    (hlength : length ≤ bound) : Fits (byteEscape? base length digits) bound := by
  unfold byteEscape?
  dsimp only
  split
  · exact fits_some hlength
  · exact fits_none _

theorem escapeLength?_fits (text : List Char) : Fits (escapeLength? text) text.length := by
  unfold escapeLength?
  split
  · exact fits_none _
  · exact codePointEscape?_fits 4 _
  · exact codePointEscape?_fits 8 _
  · split
    · exact fits_some (by simp)
    · exact byteEscape?_fits _ _ (Nat.succ_le_succ (length_digitsUpTo_le _ _ _))
  · exact fits_none _
  · split
    · exact byteEscape?_fits _ _ (Nat.succ_le_succ (length_digitsUpTo_le _ _ _))
    · exact fits_some (by simp)

theorem escapedLength_fits (text : List Char) : Fits (escapedLength text) text.length := by
  fun_induction escapedLength text with
  | case1 => exact fits_none _
  | case2 rest ih => exact ih.map_add 2
  | case3 => exact fits_some (by simp)
  | case4 rest n hescape hlt ih =>
      have hn := escapeLength?_fits rest n hescape
      refine (ih.map_add (n + 1)).mono ?_
      rw [List.length_drop, List.length_cons]
      omega
  | case5 => exact fits_none _
  | case6 c rest _ _ ih => exact ih.map_add 1

/-- A rule that counts from the start of its token stops between its place and the end. -/
def Within (distance : Nat) (text : List Char) (scan : Scan) : Prop :=
  ∀ n, scan = .ok n → distance ≤ n ∧ n ≤ distance + text.length

theorem within_error (distance : Nat) (text : List Char) (fault : LexFault) :
    Within distance text (.error fault) := by
  intro n hn
  cases hn

theorem within_ok {distance n : Nat} {text : List Char} (hstart : distance ≤ n)
    (hstop : n ≤ distance + text.length) : Within distance text (.ok n) := by
  rintro m ⟨⟩
  exact ⟨hstart, hstop⟩

/-- What holds further on in a text holds from its start. -/
theorem Within.earlier {distance later : Nat} {text rest : List Char} {scan : Scan}
    (hwithin : Within later rest scan) (hstart : distance ≤ later)
    (hstop : later + rest.length ≤ distance + text.length) : Within distance text scan :=
  fun n hn => ⟨Nat.le_trans hstart (hwithin n hn).1, Nat.le_trans (hwithin n hn).2 hstop⟩

theorem scanCodePoint_within (distance missing value : Nat) (text : List Char) :
    Within distance text (scanCodePoint distance missing value text) := by
  fun_induction scanCodePoint distance missing value text with
  | case1 => exact within_ok (Nat.le_refl _) (Nat.le_add_right _ _)
  | case2 | case3 | case5 => exact within_error _ _ _
  | case4 distance _ _ c rest _ _ ih =>
      exact ih.earlier (Nat.le_succ _) (by rw [List.length_cons]; omega)

theorem scanUnicodeEscape_within (distance : Nat) (text : List Char) :
    Within distance text (scanUnicodeEscape distance text) := by
  unfold scanUnicodeEscape
  split
  · exact within_ok (Nat.le_succ _) (by simp)
  · exact (scanCodePoint_within _ _ _ _).earlier (Nat.le_succ _) (by simp; omega)
  · exact scanCodePoint_within _ _ _ _

theorem scanUnicodeString_within (distance : Nat) (text : List Char) :
    Within distance text (scanUnicodeString distance text) := by
  fun_induction scanUnicodeString distance text with
  | case1 | case5 => exact within_error _ _ _
  | case2 distance more ih => exact ih.earlier (by omega) (by simp; omega)
  | case3 => exact within_ok (Nat.le_succ _) (by simp)
  | case4 distance rest next hescape _ ih =>
      obtain ⟨hstart, hstop⟩ := scanUnicodeEscape_within _ _ _ hescape
      refine ih.earlier (by omega) ?_
      rw [List.length_drop, List.length_cons]
      omega
  | case6 distance c rest _ _ ih => exact ih.earlier (Nat.le_succ _) (by simp; omega)

theorem scanWord_within {before : Nat} {text : List Char} :
    Within before text (scanWord before text) :=
  within_ok (Nat.le_add_right _ _) (Nat.add_le_add_left (runLength_le _ _) _)

theorem orFault_within {length : Option Nat} {text : List Char} (hfits : Fits length text.length)
    (before : Nat) (cause : LexCause) (place : Nat) :
    Within before text (orFault (length.map (· + before)) cause place) := by
  cases length with
  | none => exact within_error _ _ _
  | some n =>
      have hn := hfits n rfl
      have hstop := Nat.add_le_add_right hn before
      rw [Nat.add_comm text.length] at hstop
      exact within_ok (Nat.le_add_left before n) hstop

theorem scanRawString_within {quote : Char} {text : List Char} (hsome : text ≠ []) :
    Within 1 text (scanRawString quote text) := by
  have hrun := runLength_le (· = quote) text
  have hlength := List.length_pos_iff.mpr hsome
  unfold scanRawString
  split
  · exact within_ok (by omega) (by omega)
  · refine (orFault_within (tripleLength_fits quote 0 (text.drop 3)) 4 _ _).earlier (by omega) ?_
    rw [List.length_drop]
    omega
  · refine (orFault_within (quotedLength_fits quote (text.drop 1)) 2 _ _).earlier (by omega) ?_
    rw [List.length_drop]
    omega

theorem exponentLength_le (text : List Char) : exponentLength text ≤ text.length := by
  have hdigits : ∀ before rest, (if runLength isDigit rest = 0 then 0
      else before + runLength isDigit rest) ≤ before + rest.length := by
    intro before rest
    have hrun := runLength_le isDigit rest
    split <;> omega
  unfold exponentLength
  dsimp only
  split
  case h_7 => exact Nat.zero_le _
  all_goals
    refine Nat.le_trans (hdigits _ _) ?_
    rw [Nat.add_comm]
    exact Nat.le_refl _

theorem lt_length_of_head?_drop {c : Char} {text : List Char} {n : Nat}
    (hhead : (text.drop n).head? = some c) : n < text.length := by
  rw [List.head?_drop] at hhead
  exact (List.getElem?_eq_some_iff.mp hhead).1

section Behind

variable {text : List Char} {n : Nat}

theorem add_runLength_le (isPart : Char → Bool) (hn : n ≤ text.length) :
    n + runLength isPart (text.drop n) ≤ text.length := by
  have hrun := runLength_le isPart (text.drop n)
  rw [List.length_drop] at hrun
  omega

theorem add_point_le (hn : n ≤ text.length) :
    n + (if (text.drop n).head? = some '.' then 1 else 0) ≤ text.length := by
  split
  · rename_i hhead
    exact lt_length_of_head?_drop hhead
  · exact hn

theorem add_exponentLength_le (hn : n ≤ text.length) :
    n + exponentLength (text.drop n) ≤ text.length := by
  have hexponent := exponentLength_le (text.drop n)
  rw [List.length_drop] at hexponent
  omega

end Behind

/-- Each part of a number begins where the part before it ends. -/
theorem numberLength_le (text : List Char) : numberLength text ≤ text.length := by
  have hwhole := runLength_le isDigit text
  unfold numberLength
  simp only [List.drop_drop]
  generalize runLength isDigit text = whole at hwhole ⊢
  split
  · rename_i hhex
    simp only [Bool.and_eq_true, decide_eq_true_eq] at hhex
    have hzero : whole = 1 := by
      have hlength := congrArg List.length hhex.1
      rw [List.length_take, Nat.min_eq_left hwhole] at hlength
      exact hlength
    subst hzero
    exact add_runLength_le isHexDigit (lt_length_of_head?_drop hhex.2)
  · have hpoint := add_point_le hwhole
    generalize (if (text.drop whole).head? = some '.' then 1 else 0) = point at hpoint ⊢
    have hlength := add_runLength_le isDigit hpoint
    split
    · exact hlength
    · split
      · rename_i hhead
        exact lt_length_of_head?_drop hhead
      · exact add_exponentLength_le hlength

theorem numberLength_pos {c : Char} (hc : (isDigit c || c = '.') = true) (rest : List Char) :
    1 ≤ numberLength (c :: rest) := by
  have hstart : 1 ≤ runLength isDigit (c :: rest) ∨
      runLength isDigit (c :: rest) = 0 ∧ c = '.' := by
    by_cases hdigit : isDigit c = true
    · left
      rw [runLength, List.takeWhile_cons_of_pos hdigit]
      exact Nat.le_add_left _ _
    · right
      rw [runLength, List.takeWhile_cons_of_neg hdigit]
      exact ⟨rfl, by simpa [hdigit] using hc⟩
  unfold numberLength
  dsimp only
  split
  · exact Nat.le_trans (by decide) (Nat.le_add_right 2 _)
  · generalize hpoint : (if ((c :: rest).drop (runLength isDigit (c :: rest))).head? = some '.'
      then 1 else 0) = point
    have hlength : 1 ≤ runLength isDigit (c :: rest) + point := by
      rcases hstart with hwhole | ⟨hwhole, rfl⟩
      · omega
      · rw [hwhole, List.drop_zero, List.head?_cons, if_pos rfl] at hpoint
        omega
    split
    · omega
    · split
      · exact Nat.le_add_left _ _
      · omega

theorem scanLetter_within (c : Char) (rest : List Char) :
    Within 1 rest (scanLetter c rest) := by
  unfold scanLetter
  split
  · exact (orFault_within (quotedLength_fits _ _) 2 _ _).earlier (by omega) (by simp; omega)
  · exact (orFault_within (quotedLength_fits _ _) 2 _ _).earlier (by omega) (by simp; omega)
  · exact (orFault_within (quotedLength_fits _ _) 2 _ _).earlier (by omega) (by simp; omega)
  · exact (orFault_within (quotedLength_fits _ _) 2 _ _).earlier (by omega) (by simp; omega)
  · exact scanRawString_within (by simp)
  · exact scanRawString_within (by simp)
  · exact (orFault_within (escapedLength_fits _) 2 _ _).earlier (by omega) (by simp; omega)
  · exact (scanUnicodeString_within _ _).earlier (by omega) (by simp; omega)
  · exact scanWord_within

theorem scanDollar_within (text : List Char) : Within 1 text (scanDollar text) := by
  unfold scanDollar
  split
  · exact (orFault_within (dollarLength_fits _) 2 _ _).earlier (by omega) (by simp; omega)
  · rename_i hnone
    dsimp only
    generalize htag : text.takeWhile (fun c => isLetterOrNumber c || c = '_') = tag
    have hlength : tag.length ≤ text.length := htag ▸ (List.takeWhile_sublist _).length_le
    split
    · rename_i rest hrest
      have hdrop := congrArg List.length hrest
      rw [List.length_drop, List.length_cons] at hdrop
      exact (orFault_within (taggedLength_fits _ _) _ _ _).earlier (by omega) (by omega)
    · exact within_ok (by omega) (by omega)

theorem scanAt_within (text : List Char) : Within 1 text (scanAt text) := by
  unfold scanAt
  split
  · exact within_ok (by omega) (by simp; omega)
  · exact within_ok (by omega) (by simp; omega)
  · exact within_ok (by omega) (by simp; omega)
  · exact scanWord_within.earlier (by omega) (by simp; omega)
  · exact within_ok (by omega) (by simp)
  · exact within_ok (by omega) (by simp)
  · exact scanWord_within.earlier (by omega) (by simp; omega)
  · exact within_ok (by omega) (by simp)

theorem scanHash_within (text : List Char) : Within 1 text (scanHash text) := by
  unfold scanHash
  split
  · exact within_ok (by omega) (by simp; omega)
  · exact within_ok (by omega) (by simp; omega)
  · exact within_ok (by omega) (by simp; omega)
  · exact within_ok (by omega) (by simp)
  · exact scanWord_within.earlier (by omega) (by simp; omega)
  · exact within_ok (by omega) (by simp)

theorem length_operator_pos : ∀ operator ∈ longOperators, 1 ≤ operator.length := by
  decide

theorem operatorLength_within (c : Char) (rest : List Char) :
    1 ≤ operatorLength (c :: rest) ∧ operatorLength (c :: rest) ≤ 1 + rest.length := by
  unfold operatorLength
  split
  · rename_i operator hfound
    have hstart : operator.isPrefixOf (c :: rest) = true := by
      have hholds := List.find?_some hfound
      exact hholds
    have hlength := (List.isPrefixOf_iff_prefix.mp hstart).length_le
    rw [List.length_cons] at hlength
    exact ⟨length_operator_pos operator (List.mem_of_find?_eq_some hfound), by omega⟩
  · omega

/-! ## Tokens -/

variable {c : Char} {rest : List Char} {kind : TokenKind} {n : Nat}

/-- The rule for numbers, words, white space and operators. -/
def plainToken (c : Char) (rest : List Char) : Except LexFault (TokenKind × Nat) :=
  if isDigit c || c = '.' then .ok (.other, numberLength (c :: rest))
  else if isWordStart c then (scanLetter c rest).map fun length => (.other, length)
  else if isBlank c then .ok (.space, 1)
  else .ok (.other, operatorLength (c :: rest))

/-- No sign with a rule of its own starts the text. -/
structure IsPlain (c : Char) (rest : List Char) : Prop where
  sign : c ∉ [';', '\'', '"', '\x60', '@', '#', '$', '?']
  feed : c = '\r' → rest.head? ≠ some '\n'
  dashes : c = '-' → rest.head? ≠ some '-'
  comment : c = '/' → rest.head? ≠ some '*'

theorem IsPlain.scanToken_eq (hplain : IsPlain c rest) : scanToken c rest = plainToken c rest := by
  obtain ⟨hsign, hfeed, hdashes, hcomment⟩ := hplain
  unfold scanToken
  dsimp only
  split
  case h_12 => rfl
  all_goals simp at *

/-- How a token starts, with a case for each rule. -/
inductive Opening : Char → List Char → Prop
  | semicolon (rest : List Char) : Opening ';' rest
  | feed (more : List Char) : Opening '\r' ('\n' :: more)
  | dashes (more : List Char) : Opening '-' ('-' :: more)
  | comment (more : List Char) : Opening '/' ('*' :: more)
  | singleQuote (rest : List Char) : Opening '\'' rest
  | doubleQuote (rest : List Char) : Opening '"' rest
  | backtick (rest : List Char) : Opening '\x60' rest
  | atSign (rest : List Char) : Opening '@' rest
  | hash (rest : List Char) : Opening '#' rest
  | dollar (rest : List Char) : Opening '$' rest
  | questionMark (rest : List Char) : Opening '?' rest
  | plain {c : Char} {rest : List Char} (hplain : IsPlain c rest) : Opening c rest

theorem opening (c : Char) (rest : List Char) : Opening c rest := by
  by_contra hnone
  refine hnone (.plain ⟨fun hsign => ?_, fun hfeed hhead => ?_, fun hdash hhead => ?_,
    fun hslash hhead => ?_⟩)
  · simp only [List.mem_cons, List.not_mem_nil, or_false] at hsign
    rcases hsign with rfl | rfl | rfl | rfl | rfl | rfl | rfl | rfl <;> exact hnone (by constructor)
  all_goals
    obtain ⟨more, rfl⟩ := List.head?_eq_some_iff.mp hhead
    subst_vars
    exact hnone (by constructor)

theorem map_kind_eq_ok {scan : Scan} {found : TokenKind}
    (hmap : scan.map (fun length => (found, length)) = .ok (kind, n)) :
    found = kind ∧ scan = .ok n := by
  cases scan with
  | error fault => cases hmap
  | ok m =>
      cases hmap
      exact ⟨rfl, rfl⟩

theorem Within.of_map {scan : Scan} {found : TokenKind} (hwithin : Within 1 rest scan)
    (hmap : scan.map (fun length => (found, length)) = .ok (kind, n)) :
    1 ≤ n ∧ n ≤ 1 + rest.length :=
  hwithin n (map_kind_eq_ok hmap).2

theorem plainToken_within (hscan : plainToken c rest = .ok (kind, n)) :
    1 ≤ n ∧ n ≤ 1 + rest.length := by
  unfold plainToken at hscan
  split at hscan
  · rename_i hnumber
    cases hscan
    have hle := numberLength_le (c :: rest)
    rw [List.length_cons] at hle
    exact ⟨numberLength_pos hnumber rest, by omega⟩
  · split at hscan
    · exact (scanLetter_within c rest).of_map hscan
    · split at hscan
      · cases hscan
        omega
      · cases hscan
        exact operatorLength_within c rest

/-- Every token takes a character at least, and no more than there are. -/
theorem scanToken_within (hscan : scanToken c rest = .ok (kind, n)) :
    1 ≤ n ∧ n ≤ 1 + rest.length := by
  cases opening c rest with
  | semicolon =>
      cases hscan
      omega
  | feed =>
      cases hscan
      rw [List.length_cons]
      omega
  | dashes more =>
      have hrun := runLength_le (fun c => c ≠ '\n') more
      have hdrop : (('-' :: more).drop (2 + runLength (fun c => c ≠ '\n') more - 1)).length = _ :=
        List.length_drop
      cases hscan
      rw [List.length_cons] at hdrop ⊢
      split
      · omega
      · rename_i hsome
        rw [List.isEmpty_iff_length_eq_zero] at hsome
        omega
  | comment more =>
      have hwithin :=
        orFault_within (commentLength_fits 1 ' ' more) 2 .openComment (more.length + 2)
      exact (hwithin.earlier (by omega) (by simp; omega)).of_map hscan
  | singleQuote => exact (orFault_within (quotedLength_fits _ _) 1 _ _).of_map hscan
  | doubleQuote => exact (orFault_within (quotedLength_fits _ _) 1 _ _).of_map hscan
  | backtick => exact (orFault_within (quotedLength_fits _ _) 1 _ _).of_map hscan
  | atSign => exact (scanAt_within rest).of_map hscan
  | hash => exact (scanHash_within rest).of_map hscan
  | dollar => exact (scanDollar_within rest).of_map hscan
  | questionMark =>
      have hle := runLength_le isNumber rest
      exact (within_ok (by omega) (by omega)).of_map hscan
  | plain hplain => exact plainToken_within (hplain.scanToken_eq.symm.trans hscan)

end Sql

end MetricCatalog
