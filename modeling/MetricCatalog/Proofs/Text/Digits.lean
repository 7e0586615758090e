/-
# Digits read back

The digits that a number is written with, in either base and with any number of
zeros in front, read as that number again.
-/

import Mathlib.Algebra.Group.Nat.Defs
import MetricCatalog.Proofs.Number.Numeral
import MetricCatalog.Proofs.Text.Blank

namespace MetricCatalog.Text

/-! ## Reading in steps -/

/-- Reading goes on behind what has been read. -/
theorem bind_of_read {α β : Type} {read : Option α} {next : α → Option β} {value : α} {result : β}
    (hread : read = some value) (hnext : next value = some result) :
    (read >>= next) = some result := by
  rw [hread]
  exact hnext

theorem guard_of_holds {p : Prop} [Decidable p] (hp : p) : (guard p : Option Unit) = some () :=
  if_pos hp

/-! ## Digits -/

variable {base : Nat} {value? : Char → Option Nat}

/-- The reader of single digits knows all those that numbers are written with. -/
def ReadsDigits (base : Nat) (value? : Char → Option Nat) : Prop :=
  ∀ d < base, value? (Nat.digitChar d) = some d

theorem readsDigits_decimal : ReadsDigits 10 digitValue? := by
  unfold ReadsDigits
  decide

theorem readsDigits_hexadecimal : ReadsDigits 16 hexValue? := by
  unfold ReadsDigits
  decide

theorem digitValue?_zero : digitValue? '0' = some 0 := rfl

theorem hexValue?_zero : hexValue? '0' = some 0 := rfl

theorem appendDigits_append (start : Nat) (first second : List Nat) :
    appendDigits base start (first ++ second) =
      appendDigits base (appendDigits base start first) second :=
  List.foldl_append

theorem le_appendDigits (hbase : 0 < base) (start : Nat) (values : List Nat) :
    start ≤ appendDigits base start values := by
  induction values generalizing start with
  | nil => exact Nat.le_refl _
  | cons value rest ih =>
      calc
        start ≤ base * start := Nat.le_mul_of_pos_left start hbase
        _ ≤ base * start + value := Nat.le_add_right _ _
        _ ≤ appendDigits base start (value :: rest) := ih _

/-! ## The digits of a number -/

/-- By induction on the digits, of which the last one is the remainder. -/
theorem appendDigits_toDigits (hbase : 1 < base) (hreads : ReadsDigits base value?) (n : Nat) :
    appendDigits base 0 ((Nat.toDigits base n).filterMap value?) = n := by
  induction n using Nat.strongRecOn with
  | ind n ih =>
      rcases Nat.lt_or_ge n base with hsmall | hlarge
      · rw [Nat.toDigits_of_lt_base hsmall]
        simp [hreads n hsmall, appendDigits]
      · have hpositive : 0 < n := by omega
        have hlast := hreads (n % base) (Nat.mod_lt n (by omega))
        rw [Nat.toDigits_of_base_le hbase hlarge, List.filterMap_append, appendDigits_append,
          ih (n / base) (Nat.div_lt_self hpositive hbase)]
        simpa [hlast, appendDigits] using Nat.div_add_mod n base

theorem isSome_of_mem_toDigits (hbase : 1 < base) (hreads : ReadsDigits base value?) {n : Nat}
    {c : Char} (hc : c ∈ Nat.toDigits base n) : (value? c).isSome := by
  induction n using Nat.strongRecOn with
  | ind n ih =>
      rcases Nat.lt_or_ge n base with hsmall | hlarge
      · rw [Nat.toDigits_of_lt_base hsmall, List.mem_singleton] at hc
        rw [hc, hreads n hsmall]
        rfl
      · rw [Nat.toDigits_of_base_le hbase hlarge, List.mem_append, List.mem_singleton] at hc
        rcases hc with hfront | rfl
        · exact ih (n / base) (Nat.div_lt_self (by omega) hbase) hfront
        · rw [hreads (n % base) (Nat.mod_lt n (by omega))]
          rfl

/-- Only zero is written with a zero in front. -/
theorem head?_decimalDigits {n : Nat} (hpositive : 0 < n) :
    (decimalDigits n).head? ≠ some '0' := by
  induction n using Nat.strongRecOn with
  | ind n ih =>
      unfold decimalDigits at ih ⊢
      rcases Nat.lt_or_ge n 10 with hsmall | hlarge
      · rw [Nat.toDigits_of_lt_base hsmall]
        simp only [List.head?_cons, ne_eq, Option.some.injEq, Nat.digitChar_eq_zero]
        omega
      · have hrest := ih (n / 10) (by omega) (by omega)
        rw [Nat.toDigits_of_base_le (by decide) hlarge, List.head?_append]
        cases hhead : (Nat.toDigits 10 (n / 10)).head? with
        | none => exact absurd (List.head?_eq_none_iff.mp hhead) Nat.toDigits_ne_nil
        | some c => rwa [hhead] at hrest

theorem decimalValue_decimalDigits (n : Nat) : decimalValue (decimalDigits n) = n :=
  appendDigits_toDigits (by decide) readsDigits_decimal n

/-! ## Zeros in front -/

/-- Zeros in front do not change what the digits behind them write. -/
theorem appendDigits_zeros (hzero : value? '0' = some 0) (count : Nat) (text : List Char) :
    appendDigits base 0 ((List.replicate count '0' ++ text).filterMap value?) =
      appendDigits base 0 (text.filterMap value?) := by
  induction count with
  | zero => rfl
  | succ count ih =>
      rw [List.replicate_succ, List.cons_append, List.filterMap_cons_some hzero]
      simpa [appendDigits] using ih

/-- A text of digits is read whole. -/
theorem mapM_eq_filterMap {text : List Char} (hall : ∀ c ∈ text, (value? c).isSome) :
    text.mapM value? = some (text.filterMap value?) := by
  induction text with
  | nil => rfl
  | cons c rest ih =>
      obtain ⟨value, hvalue⟩ := Option.isSome_iff_exists.mp (hall c List.mem_cons_self)
      have hrest := ih fun other hother => hall other (List.mem_cons_of_mem c hother)
      simp [hvalue, hrest]

section Padded

variable (hbase : 1 < base) (hreads : ReadsDigits base value?) (hzero : value? '0' = some 0)

include hbase hreads hzero

theorem isSome_of_mem_padded {count n : Nat} {c : Char}
    (hc : c ∈ List.replicate count '0' ++ Nat.toDigits base n) : (value? c).isSome := by
  rcases List.mem_append.mp hc with hfront | hback
  · rw [List.eq_of_mem_replicate hfront, hzero]
    rfl
  · exact isSome_of_mem_toDigits hbase hreads hback

theorem mapM_padded (count n : Nat) :
    ((List.replicate count '0' ++ Nat.toDigits base n).mapM value?).map (appendDigits base 0) =
      some n := by
  rw [mapM_eq_filterMap fun c => isSome_of_mem_padded hbase hreads hzero, Option.map_some,
    appendDigits_zeros hzero, appendDigits_toDigits hbase hreads]

end Padded

variable {width n : Nat}

theorem paddedDigits_ne_nil : paddedDigits width n ≠ [] :=
  List.append_ne_nil_of_right_ne_nil _ (decimalDigits_ne_nil n)

theorem isDigit_of_mem_paddedDigits {c : Char} (hc : c ∈ paddedDigits width n) :
    isDigit c = true :=
  isSome_of_mem_padded (by decide) readsDigits_decimal digitValue?_zero hc

theorem decimal?_paddedDigits (width n : Nat) : decimal? (paddedDigits width n) = some n := by
  rw [decimal?, if_neg (by simpa using paddedDigits_ne_nil)]
  exact mapM_padded (by decide) readsDigits_decimal digitValue?_zero _ n

theorem decimalValue_paddedDigits (width n : Nat) : decimalValue (paddedDigits width n) = n :=
  (appendDigits_zeros digitValue?_zero _ _).trans (decimalValue_decimalDigits n)

theorem hexadecimal?_paddedHexDigits (width n : Nat) :
    hexadecimal? (paddedHexDigits width n) = some n := by
  have hsome : paddedHexDigits width n ≠ [] :=
    List.append_ne_nil_of_right_ne_nil _ Nat.toDigits_ne_nil
  rw [hexadecimal?, if_neg (by simpa using hsome)]
  exact mapM_padded (by decide) readsDigits_hexadecimal hexValue?_zero _ n

theorem isHexDigit_of_mem_paddedHexDigits {c : Char} (hc : c ∈ paddedHexDigits width n) :
    isHexDigit c = true :=
  isSome_of_mem_padded (by decide) readsDigits_hexadecimal hexValue?_zero hc

/-- A number that fits takes exactly the width. -/
theorem length_paddedDigits (hwidth : 0 < width) (hfits : n < 10 ^ width) :
    (paddedDigits width n).length = width := by
  have hlength := (Nat.length_toDigits_le_iff (by decide) hwidth).mpr hfits
  simp only [paddedDigits, decimalDigits, List.length_append, List.length_replicate]
  omega

theorem length_paddedHexDigits (hwidth : 0 < width) (hfits : n < 16 ^ width) :
    (paddedHexDigits width n).length = width := by
  have hlength := (Nat.length_toDigits_le_iff (by decide) hwidth).mpr hfits
  simp only [paddedHexDigits, List.length_append, List.length_replicate]
  omega

/-! ## Digits among other characters -/

theorem isBlank_of_isDigit {c : Char} (hc : isDigit c = true) : isBlank c = false := by
  have hrange : 48 ≤ c.toNat ∧ c.toNat ≤ 57 := by
    by_cases hdigit : '0' ≤ c && c ≤ '9'
    · simp only [Bool.and_eq_true, decide_eq_true_eq] at hdigit
      exact hdigit
    · simp [isDigit, digitValue?, hdigit] at hc
  simp only [isBlank, CharRanges.contains, blankTable, List.any_cons, List.any_nil]
  simp
  omega

section Runs

variable {digits rest : List Char} (hdigits : ∀ c ∈ digits, isDigit c = true)

include hdigits

theorem head?_digits (hsome : digits ≠ []) {mark : Char} (hmark : isDigit mark = false) :
    (digits ++ rest).head? ≠ some mark := by
  cases digits with
  | nil => exact absurd rfl hsome
  | cons first digits =>
      rintro ⟨⟩
      rw [hdigits _ List.mem_cons_self] at hmark
      cases hmark

theorem trimStart_digits (hsome : digits ≠ []) : trimStart (digits ++ rest) = digits ++ rest := by
  cases digits with
  | nil => exact absurd rfl hsome
  | cons first digits =>
      have hfirst := isBlank_of_isDigit (hdigits first List.mem_cons_self)
      exact List.dropWhile_cons_of_neg (by simp [hfirst])

end Runs

end MetricCatalog.Text
