/-
# Tokens of known shape

What the lexer takes from a text that starts with a quoted text, a word or a
number, when that is followed by something it can not go on with. A quoted text
goes on with its quote, a word with word characters, a number with digits, a
point and the letters of its notations.
-/

import Mathlib.Tactic.IntervalCases
import MetricCatalog.Proofs.Number.Numeral
import MetricCatalog.Proofs.Sql.Cuts
import MetricCatalog.Text.Quoted

namespace MetricCatalog

namespace Sql

open Text

/-- The text ends here, or a space comes next. -/
def IsBreak (rest : List Char) : Prop := ∀ c ∈ rest.head?, c = ' '

theorem isBreak_nil : IsBreak [] := by simp [IsBreak]

theorem isBreak_space (rest : List Char) : IsBreak (' ' :: rest) := by simp [IsBreak]

/-- A character that is no space can not come next. -/
theorem IsBreak.head?_ne {rest : List Char} (hbreak : IsBreak rest) {c : Char} (hc : c ≠ ' ') :
    rest.head? ≠ some c :=
  fun hhead => hc (hbreak c hhead)

/-! ## Quoted texts -/

theorem quotedLength_cons_of_ne {quote c : Char} (hc : c ≠ quote) {text : List Char}
    (htext : text ≠ []) :
    quotedLength quote (c :: text) = (quotedLength quote text).map (· + 1) := by
  cases text with
  | nil => exact absurd rfl htext
  | cons d rest => rw [quotedLength, if_neg hc]

/-- The doubled quotes do not close the text, and the single one does. -/
theorem quotedLength_doubled (quote : Char) (text : List Char) {rest : List Char}
    (hrest : rest.head? ≠ some quote) :
    quotedLength quote (doubled quote text ++ quote :: rest) =
      some ((doubled quote text).length + 1) := by
  induction text with
  | nil =>
      cases rest with
      | nil => simp [quotedLength]
      | cons d more =>
          have hd : d ≠ quote := fun hd => hrest (congrArg some hd)
          simp [quotedLength, hd]
  | cons c text ih =>
      by_cases hc : c = quote
      · simp [doubled, hc, quotedLength, ih]
      · rw [doubled, if_neg hc, List.cons_append, quotedLength_cons_of_ne hc (by simp), ih]
        rfl

theorem scanToken_identifier (name : List Char) {rest : List Char}
    (hrest : rest.head? ≠ some '"') :
    scanToken '"' ((doubled '"' name ++ ['"']) ++ rest) =
      .ok (.other, (doubled '"' name ++ ['"']).length + 1) := by
  have hscan : ∀ text, scanToken '"' text =
      (orFault ((quotedLength '"' text).map (· + 1)) (.openIdentifier '"') 0).map
        fun length => (.other, length) := fun _ => rfl
  rw [hscan, List.append_assoc, List.singleton_append, quotedLength_doubled '"' name hrest,
    List.length_append]
  rfl

theorem scanToken_string (value : List Char) {rest : List Char}
    (hrest : rest.head? ≠ some '\'') :
    scanToken '\'' ((doubled '\'' value ++ ['\'']) ++ rest) =
      .ok (.other, (doubled '\'' value ++ ['\'']).length + 1) := by
  have hscan : ∀ text, scanToken '\'' text =
      (orFault ((quotedLength '\'' text).map (· + 1)) .openString 0).map
        fun length => (.other, length) := fun _ => rfl
  rw [hscan, List.append_assoc, List.singleton_append, quotedLength_doubled '\'' value hrest,
    List.length_append]
  rfl

/-! ## Runs of characters -/

theorem runLength_append {isPart : Char → Bool} {run rest : List Char}
    (hrun : ∀ c ∈ run, isPart c = true) (hrest : ∀ c ∈ rest.head?, isPart c = false) :
    runLength isPart (run ++ rest) = run.length := by
  rw [runLength, List.takeWhile_append_of_pos hrun, List.length_append]
  cases rest with
  | nil => simp
  | cons c more => simp [hrest c rfl]

/-- A word is taken whole if a space or the end follows. -/
theorem runLength_word {run rest : List Char} (hrun : ∀ c ∈ run, isWordPart c = true)
    (hbreak : IsBreak rest) : runLength isWordPart (run ++ rest) = run.length := by
  refine runLength_append hrun fun c hc => ?_
  rw [hbreak c hc]
  rfl

/-! ## Numbers -/

/-- The digits are ten characters. -/
theorem exists_digitChar_of_isDigit {c : Char} (hc : isDigit c = true) :
    ∃ n < 10, c = Nat.digitChar n := by
  have hrange : 48 ≤ c.toNat ∧ c.toNat ≤ 57 := by
    simp only [isDigit, digitValue?] at hc
    split at hc
    · rename_i hdigit
      simpa [Char.le_def, UInt32.le_iff_toNat_le] using hdigit
    · cases hc
  obtain ⟨hlow, hhigh⟩ := hrange
  refine ⟨c.toNat - 48, by omega, ?_⟩
  rw [← Char.ofNat_toNat c]
  generalize c.toNat = n at hlow hhigh
  interval_cases n <;> rfl

theorem scanToken_digit {c : Char} (hc : isDigit c = true) (rest : List Char) :
    scanToken c rest = .ok (.other, numberLength (c :: rest)) := by
  obtain ⟨n, hn, rfl⟩ := exists_digitChar_of_isDigit hc
  interval_cases n <;> rfl

theorem scanToken_minus {c : Char} (hc : isDigit c = true) (rest : List Char) :
    scanToken '-' (c :: rest) = .ok (.other, 1) := by
  obtain ⟨n, hn, rfl⟩ := exists_digitChar_of_isDigit hc
  interval_cases n <;> rfl

theorem exponentLength_of_isBreak {rest : List Char} (hbreak : IsBreak rest) :
    exponentLength rest = 0 := by
  cases rest with
  | nil => rfl
  | cons c more =>
      rw [hbreak c rfl]
      rfl

/-- Behind the letter of an exponent stand a sign or none and digits, and all of them belong to
the number. -/
theorem exponentLength_append {sign digits rest : List Char}
    (hsign : sign = [] ∨ sign = ['+'] ∨ sign = ['-']) (hdigits : ∀ c ∈ digits, isDigit c = true)
    (hsome : digits ≠ []) (hbreak : IsBreak rest) :
    exponentLength ('e' :: (sign ++ digits ++ rest)) = 1 + sign.length + digits.length := by
  have hrun : runLength isDigit (digits ++ rest) = digits.length := by
    refine runLength_append hdigits fun c hc => ?_
    rw [hbreak c hc]
    rfl
  have hpos : digits.length ≠ 0 := fun hzero => hsome (List.length_eq_zero_iff.mp hzero)
  rcases hsign with rfl | rfl | rfl
  · obtain ⟨d, more, rfl⟩ := List.exists_cons_of_ne_nil hsome
    have hlength : exponentLength ('e' :: (d :: more ++ rest)) =
        if runLength isDigit (d :: more ++ rest) = 0 then 0
        else 1 + runLength isDigit (d :: more ++ rest) := by
      obtain ⟨n, hn, rfl⟩ := exists_digitChar_of_isDigit (hdigits d List.mem_cons_self)
      interval_cases n <;> rfl
    rw [List.nil_append, hlength, hrun, if_neg hpos]
    rfl
  · show (if runLength isDigit (digits ++ rest) = 0 then 0
      else 2 + runLength isDigit (digits ++ rest)) = _
    rw [hrun, if_neg hpos]
    rfl
  · show (if runLength isDigit (digits ++ rest) = 0 then 0
      else 2 + runLength isDigit (digits ++ rest)) = _
    rw [hrun, if_neg hpos]
    rfl

theorem numberLength_append {whole fraction more : List Char}
    (hwhole : ∀ c ∈ whole, isDigit c = true) (hsome : whole ≠ [])
    (hfraction : ∀ c ∈ fraction, isDigit c = true)
    (hmore : ∀ c ∈ more.head?, c = 'e' ∨ c = ' ')
    (hlast : (more.drop (exponentLength more)).head? ≠ some 'L') :
    numberLength (whole ++ (pointed fraction ++ more)) =
      whole.length + (pointed fraction).length + exponentLength more := by
  have hstop : ∀ c ∈ more.head?, isDigit c = false := by
    intro c hc
    rcases hmore c hc with rfl | rfl <;> rfl
  have hrest : ∀ c ∈ (pointed fraction ++ more).head?, isDigit c = false ∧ c ≠ 'x' := by
    intro c hc
    cases fraction with
    | nil => rcases hmore c hc with rfl | rfl <;> decide
    | cons d digits =>
        cases hc
        decide
  have hlength : runLength isDigit (whole ++ (pointed fraction ++ more)) = whole.length :=
    runLength_append hwhole fun c hc => (hrest c hc).1
  have hpos : whole.length ≠ 0 := fun hzero => hsome (List.length_eq_zero_iff.mp hzero)
  have hnox : (pointed fraction ++ more).head? ≠ some 'x' := fun hx => (hrest 'x' hx).2 rfl
  have hpoint : (if (pointed fraction ++ more).head? = some '.' then 1 else 0) +
      runLength isDigit ((pointed fraction ++ more).drop
        (if (pointed fraction ++ more).head? = some '.' then 1 else 0)) =
      (pointed fraction).length := by
    cases fraction with
    | nil =>
        have hnopoint : more.head? ≠ some '.' := fun hhead => by
          rcases hmore '.' hhead with hc | hc <;> cases hc
        have hnone : runLength isDigit ([] ++ more) = 0 :=
          runLength_append (fun c hc => by cases hc) hstop
        simpa [pointed, hnopoint] using hnone
    | cons d digits =>
        have hrun := runLength_append hfraction hstop
        rw [List.cons_append] at hrun
        simp [pointed, hrun, Nat.add_comm]
  unfold numberLength
  simp only [hlength, List.drop_left, hnox, hpos, decide_false, Bool.and_false, Bool.false_and,
    Bool.false_eq_true, if_false]
  rw [Nat.add_assoc whole.length, hpoint, ← List.length_append, ← List.append_assoc,
    List.drop_left, List.drop_length_add_append, if_neg hlast]

/-- A number is taken whole, its fraction and its exponent included. -/
theorem numberLength_body {n : Numeral} (hn : n.WellFormed) {rest : List Char}
    (hbreak : IsBreak rest) : numberLength (n.body ++ rest) = n.body.length := by
  have hscaled : exponentLength (scaled n.scale ++ rest) = (scaled n.scale).length := by
    cases hscale : n.scale with
    | none => exact exponentLength_of_isBreak hbreak
    | some scale =>
        have hlength := exponentLength_append (hn.scale_sign scale hscale) (hn.scale scale hscale)
          (hn.scale_ne_nil scale hscale) hbreak
        rw [scaled, List.cons_append, hlength, List.length_cons, List.length_append]
        omega
  have hnext : ∀ c ∈ (scaled n.scale ++ rest).head?, c = 'e' ∨ c = ' ' := by
    intro c hc
    cases hscale : n.scale with
    | none => exact Or.inr (hbreak c (by simpa [hscale, scaled] using hc))
    | some scale =>
        rw [hscale] at hc
        cases hc
        exact Or.inl rfl
  have hlength := numberLength_append hn.whole hn.whole_ne_nil hn.fraction hnext (by
    rw [hscaled, List.drop_left]
    exact hbreak.head?_ne (by decide))
  simp only [Numeral.body, List.append_assoc, List.length_append]
  rw [hlength, hscaled, Nat.add_assoc]

end Sql

end MetricCatalog
