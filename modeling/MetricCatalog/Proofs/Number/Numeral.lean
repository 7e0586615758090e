/-
# Well-formed numerals

A numeral that is written for a number has digits before its point, and behind
the letter of its exponent if it has one. Every layout writes such numerals.
-/

import MetricCatalog.Number.Layout

namespace MetricCatalog

open Text

/-- The point of a numeral and the digits behind it; there is no point without such digits. -/
def pointed (fraction : List Char) : List Char :=
  if fraction.isEmpty then [] else '.' :: fraction

/-- The exponent of a numeral, if there is one. -/
def scaled : Option Scale → List Char
  | none => []
  | some scale => 'e' :: (scale.sign ++ scale.digits)

namespace Numeral

/-- The written form without the minus in front. -/
def body (n : Numeral) : List Char := n.whole ++ (pointed n.fraction ++ scaled n.scale)

theorem text_eq (n : Numeral) : n.text = (if n.negative then ['-'] else []) ++ n.body := by
  simp only [text, body, pointed, List.append_assoc]
  cases n.scale <;> rfl

/-- All that is written as a digit is one, and there are digits where there have to be. -/
structure WellFormed (n : Numeral) : Prop where
  whole_ne_nil : n.whole ≠ []
  whole : ∀ c ∈ n.whole, isDigit c = true
  fraction : ∀ c ∈ n.fraction, isDigit c = true
  scale_sign : ∀ scale ∈ n.scale, scale.sign = [] ∨ scale.sign = ['+'] ∨ scale.sign = ['-']
  scale_ne_nil : ∀ scale ∈ n.scale, scale.digits ≠ []
  scale : ∀ scale ∈ n.scale, ∀ c ∈ scale.digits, isDigit c = true

end Numeral

/-! ## The digits of numbers -/

theorem isDigit_of_mem_decimalDigits {n : Nat} {c : Char} (hc : c ∈ decimalDigits n) :
    isDigit c = true := by
  have hdigit := Nat.isDigit_of_mem_toDigits (by decide) (by decide) hc
  simp only [Char.isDigit, ge_iff_le, Bool.and_eq_true, decide_eq_true_iff] at hdigit
  simpa [isDigit, digitValue?, Char.le_def] using hdigit

theorem decimalDigits_ne_nil (n : Nat) : decimalDigits n ≠ [] := Nat.toDigits_ne_nil

theorem isDigit_of_mem_zeros {count : Nat} {c : Char} (hc : c ∈ List.replicate count '0') :
    isDigit c = true := by
  rw [List.eq_of_mem_replicate hc]
  rfl

theorem isDigit_of_mem_zero {c : Char} (hc : c ∈ ['0']) : isDigit c = true := by
  rw [List.mem_singleton.mp hc]
  rfl

/-! ## Numerals that are written -/

theorem Numeral.wellFormed_ofInt (n : Int) : (Numeral.ofInt n).WellFormed where
  whole_ne_nil := decimalDigits_ne_nil _
  whole := fun _ hc => isDigit_of_mem_decimalDigits hc
  fraction := fun _ hc => by cases hc
  scale_sign := fun _ hscale => by cases hscale
  scale_ne_nil := fun _ hscale => by cases hscale
  scale := fun _ hscale => by cases hscale

/-- A numeral without an exponent is well-formed if its digits are digits. -/
theorem Numeral.wellFormed_unscaled {negative : Bool} {whole fraction : List Char}
    (hsome : whole ≠ []) (hwhole : ∀ c ∈ whole, isDigit c = true)
    (hfraction : ∀ c ∈ fraction, isDigit c = true) :
    (Numeral.mk negative whole fraction none).WellFormed where
  whole_ne_nil := hsome
  whole := hwhole
  fraction := hfraction
  scale_sign := fun _ hscale => by cases hscale
  scale_ne_nil := fun _ hscale => by cases hscale
  scale := fun _ hscale => by cases hscale

namespace Layout

theorem wellFormed_placePoint (negative : Bool) {digits : List Char} (hsome : digits ≠ [])
    (hdigits : ∀ c ∈ digits, isDigit c = true) (position : Int) :
    (placePoint negative digits position).WellFormed := by
  unfold placePoint
  split
  · refine Numeral.wellFormed_unscaled (List.cons_ne_nil _ _) (fun c => isDigit_of_mem_zero)
      fun c hc => ?_
    rcases List.mem_append.mp hc with hzero | hmem
    · exact isDigit_of_mem_zeros hzero
    · exact hdigits c hmem
  · rename_i hposition
    simp only
    split
    · refine Numeral.wellFormed_unscaled ?_ (fun c hc => ?_) fun c => isDigit_of_mem_zero
      · exact fun hnil => hsome (List.append_eq_nil_iff.mp hnil).1
      · rcases List.mem_append.mp hc with hmem | hzero
        · exact hdigits c hmem
        · exact isDigit_of_mem_zeros hzero
    · refine Numeral.wellFormed_unscaled ?_ (fun c hc => hdigits c (List.mem_of_mem_take hc))
        fun c hc => hdigits c (List.mem_of_mem_drop hc)
      rw [Ne, List.take_eq_nil_iff, not_or]
      exact ⟨by omega, hsome⟩

theorem wellFormed_withExponent {layout : Layout}
    (hsign : layout.exponentSign = [] ∨ layout.exponentSign = ['+']) (negative : Bool)
    {digits : List Char} (hsome : digits ≠ []) (hdigits : ∀ c ∈ digits, isDigit c = true)
    (e : Int) : (layout.withExponent negative digits e).WellFormed where
  whole_ne_nil := by
    rw [withExponent, Ne, List.take_eq_nil_iff, not_or]
    exact ⟨by decide, hsome⟩
  whole := fun c hc => hdigits c (List.mem_of_mem_take hc)
  fraction := fun c hc => hdigits c (List.mem_of_mem_drop hc)
  scale_sign := by
    rintro scale ⟨⟩
    by_cases hnegative : e < 0
    · exact Or.inr (Or.inr (by simp [hnegative]))
    · rcases hsign with hnone | hplus
      · exact Or.inl (by simp [hnegative, hnone])
      · exact Or.inr (Or.inl (by simp [hnegative, hplus]))
  scale_ne_nil := by
    rintro scale ⟨⟩
    exact decimalDigits_ne_nil _
  scale := by
    rintro scale ⟨⟩
    exact fun c hc => isDigit_of_mem_decimalDigits hc

/-- Whatever the number, a layout writes it as a well-formed numeral. -/
theorem wellFormed_numeral {layout : Layout}
    (hsign : layout.exponentSign = [] ∨ layout.exponentSign = ['+']) (x : Double) :
    (layout.numeral x).WellFormed := by
  unfold numeral
  simp only
  split
  · exact wellFormed_placePoint _ (decimalDigits_ne_nil _)
      (fun c hc => isDigit_of_mem_decimalDigits hc) _
  · exact wellFormed_withExponent hsign _ (decimalDigits_ne_nil _)
      (fun c hc => isDigit_of_mem_decimalDigits hc) _

end Layout

end MetricCatalog
