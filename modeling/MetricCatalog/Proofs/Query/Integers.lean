/-
# Integers in filters

Digits with or without a sign write an integer, of any size. A filter takes it
if it has 64 bits and takes nothing else for it, be it another integer or a
number with a fraction. Whatever integer a filter holds is read back from the
statement that is made of it.
-/

import Mathlib.Data.Nat.Digits.Defs
import MetricCatalog.Proofs.Query.Literal

namespace MetricCatalog

open Text

/-! ## The value of digits -/

/-- The number that digits write: the last one counts once, the one before it ten times, and so
on. -/
def Text.digitsValue (digits : List Char) : ℕ :=
  Nat.ofDigits 10 (digits.reverse.map fun c => c.toNat - '0'.toNat)

/-- The integer that a sign, or none, and digits write. -/
def Text.signedValue (sign digits : List Char) : ℤ :=
  if sign = ['-'] then -(digitsValue digits : ℤ) else digitsValue digits

theorem Text.digitValue?_of_isDigit {c : Char} (hc : c.isDigit = true) :
    digitValue? c = some (c.toNat - '0'.toNat) := by
  simp only [Char.isDigit, ge_iff_le, Bool.and_eq_true, decide_eq_true_iff] at hc
  rw [digitValue?, if_pos]
  simpa [Char.le_def] using hc

theorem Text.appendDigits_eq_ofDigits (values : List ℕ) :
    appendDigits 10 0 values = Nat.ofDigits 10 values.reverse := by
  induction values using List.reverseRecOn with
  | nil => rfl
  | append_singleton values value ih =>
      rw [appendDigits_append, ih, List.reverse_append, List.reverse_singleton,
        List.singleton_append, Nat.ofDigits_cons, Nat.add_comm]
      rfl

theorem Text.decimal?_digits {digits : List Char} (hsome : digits ≠ [])
    (hdigits : ∀ c ∈ digits, c.isDigit = true) : decimal? digits = some (digitsValue digits) := by
  have hvalues : digits.filterMap digitValue? = digits.map fun c => c.toNat - '0'.toNat := by
    rw [← List.filterMap_eq_map]
    exact List.filterMap_congr fun c hc => digitValue?_of_isDigit (hdigits c hc)
  have hread : ∀ c ∈ digits, (digitValue? c).isSome := fun c hc => by
    rw [digitValue?_of_isDigit (hdigits c hc)]
    rfl
  rw [decimal?, if_neg (by simpa using hsome), mapM_eq_filterMap hread, hvalues, Option.map_some,
    appendDigits_eq_ofDigits, ← List.map_reverse, digitsValue]

namespace Literal

/-! ## Reading integers -/

section

variable {sign digits : List Char}

/-- Behind a sign the digits are left. Without one there is nothing to be taken for it. -/
theorem splitSign_append (hsign : sign ∈ [[], ['+'], ['-']]) (hsome : digits ≠ [])
    (hdigits : ∀ c ∈ digits, c.isDigit = true) :
    splitSign (sign ++ digits) = (decide (sign = ['-']), digits) := by
  obtain ⟨c, rest, rfl⟩ := List.exists_cons_of_ne_nil hsome
  have hc := hdigits c List.mem_cons_self
  simp only [List.mem_cons, List.not_mem_nil, or_false] at hsign
  rcases hsign with rfl | rfl | rfl
  · rw [List.nil_append]
    unfold splitSign
    split
    · rename_i heq
      cases heq
      exact absurd hc (by decide)
    · rename_i heq
      cases heq
      exact absurd hc (by decide)
    · rfl
  · rfl
  · rfl

theorem number?_append (hsign : sign ∈ [[], ['+'], ['-']]) (hsome : digits ≠ [])
    (hdigits : ∀ c ∈ digits, c.isDigit = true) :
    number? (sign ++ digits) =
      (intOf (decide (sign = ['-'])) (digitsValue digits)).map .int := by
  rw [number?, splitSign_append hsign hsome hdigits]
  simp only [natural?, decimal?_digits hsome hdigits]

theorem intOf_eq (sign digits : List Char) :
    intOf (decide (sign = ['-'])) (digitsValue digits) =
      if -2 ^ 63 ≤ signedValue sign digits ∧ signedValue sign digits ≤ 2 ^ 63 - 1 then
        some (Int64.ofInt (signedValue sign digits))
      else none := by
  rw [intOf, signedValue]
  simp only [decide_eq_true_eq, Bool.and_eq_true, Int64.toInt_minValue, Int64.toInt_maxValue]

theorem parseText_number {c : Char} (hc : c.isDigit = true ∨ c ∈ ['+', '-']) (rest : List Char) :
    parseText (c :: rest) = number? (c :: rest) := by
  have hstart : isDigit c || c = '-' || c = '+' || c = '.' := by
    rcases hc with hdigit | hsign
    · have hvalue : isDigit c = true := by
        rw [isDigit, digitValue?_of_isDigit hdigit]
        rfl
      simp [hvalue]
    · simp only [List.mem_cons, List.not_mem_nil, or_false] at hsign
      rcases hsign with rfl | rfl <;> rfl
  have hne (other : Char) (hother : ¬ (other.isDigit = true ∨ other ∈ ['+', '-'])) : c ≠ other :=
    fun hsame => hother (hsame ▸ hc)
  have hword : c ≠ 't' ∧ c ≠ 'T' ∧ c ≠ 'f' ∧ c ≠ 'F' :=
    ⟨hne _ (by decide), hne _ (by decide), hne _ (by decide), hne _ (by decide)⟩
  have hquote : c ≠ '\'' ∧ c ≠ '"' := ⟨hne _ (by decide), hne _ (by decide)⟩
  unfold parseText
  simp [hword, hquote, hstart]

theorem parse?_append (hsign : sign ∈ [[], ['+'], ['-']]) (hsome : digits ≠ [])
    (hdigits : ∀ c ∈ digits, c.isDigit = true) :
    parse? (String.ofList (sign ++ digits)) =
      if -2 ^ 63 ≤ signedValue sign digits ∧ signedValue sign digits ≤ 2 ^ 63 - 1 then
        some (.int (Int64.ofInt (signedValue sign digits)))
      else none := by
  obtain ⟨c, rest, htext, hc⟩ : ∃ c rest, sign ++ digits = c :: rest ∧
      (c.isDigit = true ∨ c ∈ ['+', '-']) := by
    obtain ⟨c, rest, rfl⟩ := List.exists_cons_of_ne_nil hsome
    simp only [List.mem_cons, List.not_mem_nil, or_false] at hsign
    rcases hsign with rfl | rfl | rfl
    · exact ⟨c, rest, rfl, Or.inl (hdigits c List.mem_cons_self)⟩
    · exact ⟨'+', c :: rest, rfl, Or.inr (by decide)⟩
    · exact ⟨'-', c :: rest, rfl, Or.inr (by decide)⟩
  rw [parse?, String.toList_ofList, htext, parseText_number hc, ← htext,
    number?_append hsign hsome hdigits, intOf_eq]
  split <;> rfl

end

/-! ## Writing integers -/

theorem isDigit_decimalDigits (n : ℕ) : ∀ c ∈ decimalDigits n, c.isDigit = true := fun _ hc =>
  Nat.isDigit_of_mem_toDigits (by decide) (by decide) hc

theorem digitsValue_decimalDigits (n : ℕ) : digitsValue (decimalDigits n) = n := by
  have hread := decimal?_digits (decimalDigits_ne_nil n) (isDigit_decimalDigits n)
  have hpadded : decimal? (decimalDigits n) = some n := by
    simpa [paddedDigits] using decimal?_paddedDigits 0 n
  exact Option.some.inj (hread.symm.trans hpadded)

/-- The written form of an integer is a minus, or nothing, and its digits. -/
theorem exists_sql_int (number : Int64) :
    ∃ sign ∈ [[], ['+'], ['-']], ∃ digits : List Char, digits ≠ [] ∧
      (∀ c ∈ digits, c.isDigit = true) ∧ (int number).sql = String.ofList (sign ++ digits) ∧
        signedValue sign digits = number.toInt := by
  have hsql : (int number).sql = String.ofList (Numeral.ofInt number.toInt).text := by
    rw [sql, ← toList_toString, String.ofList_toList]
  refine ⟨if number.toInt < 0 then ['-'] else [], by split <;> simp,
    decimalDigits number.toInt.natAbs, decimalDigits_ne_nil _, isDigit_decimalDigits _, ?_, ?_⟩
  · rw [hsql, Numeral.text_eq]
    simp [Numeral.ofInt, Numeral.body, pointed, scaled]
  · rw [signedValue, digitsValue_decimalDigits]
    by_cases hnegative : number.toInt < 0
    · rw [if_pos hnegative, if_pos rfl]
      omega
    · rw [if_neg hnegative, if_neg (by simp)]
      omega

/-- Integers are read exactly or not at all, whatever their number of digits and of zeros in front,
and what is written for an integer is read as it. -/
theorem parse?_integer :
    (∀ sign ∈ [[], ['+'], ['-']], ∀ digits : List Char, digits ≠ [] →
      (∀ c ∈ digits, c.isDigit = true) →
        (-2 ^ 63 ≤ signedValue sign digits ∧ signedValue sign digits ≤ 2 ^ 63 - 1 →
          ∃ number : Int64, number.toInt = signedValue sign digits ∧
            parse? (String.ofList (sign ++ digits)) = some (.int number)) ∧
        (signedValue sign digits < -2 ^ 63 ∨ 2 ^ 63 - 1 < signedValue sign digits →
          parse? (String.ofList (sign ++ digits)) = none)) ∧
    ∀ number : Int64, parse? (int number).sql = some (.int number) := by
  refine ⟨fun sign hsign digits hsome hdigits => ⟨fun hfits => ?_, fun hlarge => ?_⟩,
    fun number => ?_⟩
  · refine ⟨Int64.ofInt (signedValue sign digits), ?_, ?_⟩
    · exact Int64.toInt_ofInt_of_le hfits.1 (by omega)
    · rw [parse?_append hsign hsome hdigits, if_pos hfits]
  · rw [parse?_append hsign hsome hdigits, if_neg (by omega)]
  · obtain ⟨sign, hsign, digits, hsome, hdigits, hsql, hvalue⟩ := exists_sql_int number
    have hlow := number.le_toInt
    have hhigh := number.toInt_lt
    rw [hsql, parse?_append hsign hsome hdigits, hvalue, if_pos ⟨hlow, by omega⟩,
      Int64.ofInt_toInt]

/-- An integer at the end of the range, with zeros in front, and the one behind it. -/
theorem parse?_integer_lowest :
    (∃ number : Int64, number.toInt = -9223372036854775808 ∧
      parse? "-0009223372036854775808" = some (.int number)) ∧
    parse? "-9223372036854775809" = none ∧
    parse? (int Int64.minValue).sql = some (.int Int64.minValue) := by
  obtain ⟨hread, hwritten⟩ := parse?_integer
  have hlowest : signedValue ['-'] "0009223372036854775808".toList = -9223372036854775808 := by
    decide +kernel
  have hbelow : signedValue ['-'] "9223372036854775809".toList = -9223372036854775809 := by
    decide +kernel
  have hfits := (hread ['-'] (by decide) "0009223372036854775808".toList (by decide)
    (List.all_eq_true.mp (by decide))).1
  have hlarge := (hread ['-'] (by decide) "9223372036854775809".toList (by decide)
    (List.all_eq_true.mp (by decide))).2
  rw [hlowest] at hfits
  rw [hbelow] at hlarge
  exact ⟨hfits (by decide), hlarge (by decide), hwritten Int64.minValue⟩

end Literal

end MetricCatalog
