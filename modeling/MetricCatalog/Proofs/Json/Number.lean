/-
# Numbers in JSON, written and read

The numerals that are written as JSON have no zero in front of their other
digits. The text of such a numeral is taken apart into the numeral again,
whatever stands behind it, as long as that does not go on with the number. An
integer of 64 bits is read as itself, and the numeral of a double, which always
has a point or an exponent, is never read as an integer.
-/

import Mathlib.Algebra.Group.Int.Defs
import Mathlib.Data.Option.Basic
import MetricCatalog.Json.Number
import MetricCatalog.Json.Parser
import MetricCatalog.Proofs.Text.Digits

namespace MetricCatalog

open Text

/-! ## Numerals without needless zeros -/

/-- A numeral as JSON has it. -/
structure Numeral.IsPlain (n : Numeral) : Prop extends n.WellFormed where
  lead : n.whole.head? ≠ some '0' ∨ n.whole.length = 1

/-- Digits of which the first is a zero only if it stands alone. -/
theorem lead_decimalDigits (n : Nat) :
    (decimalDigits n).head? ≠ some '0' ∨ (decimalDigits n).length = 1 := by
  rcases Nat.eq_zero_or_pos n with rfl | hpositive
  · exact Or.inr rfl
  · exact Or.inl (head?_decimalDigits hpositive)

theorem Numeral.isPlain_ofInt (n : Int) : (Numeral.ofInt n).IsPlain where
  toWellFormed := wellFormed_ofInt n
  lead := lead_decimalDigits _

theorem Numeral.ofInt_natCast (n : Nat) : Numeral.ofInt n = Numeral.ofNat n := by
  rw [ofInt, ofNat, Int.natAbs_natCast, decide_eq_false (by omega)]

theorem Numeral.isPlain_ofNat (n : Nat) : (Numeral.ofNat n).IsPlain :=
  ofInt_natCast n ▸ isPlain_ofInt n

/-! ## The numerals of doubles -/

theorem Decimal.digits_normalize {d : Decimal} (hsome : d.digits ≠ 0) :
    d.normalize.digits ≠ 0 := by
  fun_induction normalize d with
  | case1 => exact hsome
  | case2 d _ hdivides ih => exact ih (by simp only; omega)
  | case3 => exact hsome

namespace Double

/-- A candidate on a grid is taken only if it is not zero. -/
theorem digits_candidate {admitted : Bool} {candidate : Nat} {e : Int} {other : Option Decimal}
    {d : Decimal}
    (htaken : (if admitted && candidate ≠ 0 then some ⟨candidate, e⟩ else other) = some d) :
    d.digits ≠ 0 ∨ other = some d := by
  split at htaken
  · rename_i hcandidate
    rw [← Option.some.inj htaken]
    exact Or.inl (by simpa using (Bool.and_eq_true_iff.mp hcandidate).2)
  · exact Or.inr htaken

theorem digits_onGrid? {interval : RoundingInterval} {e : Int} {d : Decimal}
    (hgrid : interval.onGrid? e = some d) : d.digits ≠ 0 := by
  rcases digits_candidate hgrid with hnearest | hgrid
  · exact hnearest
  · rcases digits_candidate hgrid with hother | hnone
    · exact hother
    · cases hnone

/-- The shortest digits of a double are those of a positive number, or a single zero. -/
theorem shortest_eq_zero_or (x : Double) : x.shortest = ⟨0, 0⟩ ∨ x.shortest.digits ≠ 0 := by
  unfold shortest
  split
  · exact Or.inl rfl
  · simp only
    cases hfound : List.findSome? x.roundingInterval.onGrid? _ with
    | none =>
        rw [Option.getD_none, Decimal.normalize, dif_pos rfl]
        exact Or.inl rfl
    | some d =>
        obtain ⟨e, _, hgrid⟩ := List.exists_of_findSome?_eq_some hfound
        exact Or.inr (Decimal.digits_normalize (digits_onGrid? hgrid))

end Double

namespace Layout

/-- The digits of a positive number are written in full without a needless zero. -/
theorem lead_placePoint (negative : Bool) {n : Nat} (hpositive : n ≠ 0) (position : Int) :
    (placePoint negative (decimalDigits n) position).whole.head? ≠ some '0' ∨
      (placePoint negative (decimalDigits n) position).whole.length = 1 := by
  have hlead := head?_decimalDigits (Nat.pos_of_ne_zero hpositive)
  unfold placePoint
  split
  · exact Or.inr rfl
  · have hpoint : position.toNat ≠ 0 := by omega
    refine Or.inl ?_
    cases hdigits : decimalDigits n with
    | nil => exact absurd hdigits (decimalDigits_ne_nil n)
    | cons first rest =>
        rw [hdigits] at hlead
        simp only
        split
        · simpa using hlead
        · simpa [List.head?_take, hpoint] using hlead

theorem isPlain_numeral {layout : Layout}
    (hsign : layout.exponentSign = [] ∨ layout.exponentSign = ['+']) (x : Double) :
    (layout.numeral x).IsPlain where
  toWellFormed := wellFormed_numeral hsign x
  lead := by
    unfold numeral
    simp only
    split
    · rcases x.shortest_eq_zero_or with hzero | hsome
      · rw [hzero]
        exact Or.inr rfl
      · exact lead_placePoint _ hsome _
    · refine Or.inr ?_
      have hdigits := List.length_pos_iff.mpr (decimalDigits_ne_nil x.shortest.digits)
      simp only [withExponent, List.length_take]
      omega

/-- The numeral of a double has a point or an exponent. -/
theorem fraction_or_scale_numeral (layout : Layout) (x : Double) :
    (layout.numeral x).fraction ≠ [] ∨ (layout.numeral x).scale ≠ none := by
  unfold numeral
  simp only
  split
  · refine Or.inl ?_
    unfold placePoint
    split
    · exact List.append_ne_nil_of_right_ne_nil _ (decimalDigits_ne_nil _)
    · simp only
      split
      · exact List.cons_ne_nil _ _
      · rename_i hlength
        exact fun hnil => hlength (List.drop_eq_nil_iff.mp hnil)
  · exact Or.inr (Option.some_ne_none _)

end Layout

/-! ## Taking a numeral apart -/

namespace Json

/-- What stands behind a number does not go on with it. -/
def EndsNumber (rest : List Char) : Prop :=
  ∀ c ∈ rest.head?, isDigit c = false ∧ c ≠ '.' ∧ c ≠ 'e' ∧ c ≠ 'E'

variable {digits rest : List Char}

theorem digitRun?_append (hsome : digits ≠ []) (hdigits : ∀ c ∈ digits, isDigit c = true)
    (hrest : ∀ c ∈ rest.head?, isDigit c = false) :
    digitRun? (digits ++ rest) = some (digits, rest) := by
  rw [digitRun?, takeWhile_run hdigits hrest, dropWhile_run hdigits hrest]
  simp [hsome]

/-- An exponent without a sign. -/
theorem parseScale?_unsigned {text : List Char} (hplus : text.head? ≠ some '+')
    (hminus : text.head? ≠ some '-') :
    parseScale? ('e' :: text) = (digitRun? text).map fun run => (some ⟨[], run.1⟩, run.2) := by
  cases text with
  | nil => rfl
  | cons c rest =>
      unfold parseScale?
      split <;> simp_all

theorem parseScale?_scaled {scale : Option Scale}
    (hsign : ∀ s ∈ scale, s.sign = [] ∨ s.sign = ['+'] ∨ s.sign = ['-'])
    (hsome : ∀ s ∈ scale, s.digits ≠ []) (hdigits : ∀ s ∈ scale, ∀ c ∈ s.digits, isDigit c = true)
    (hrest : EndsNumber rest) : parseScale? (scaled scale ++ rest) = some (scale, rest) := by
  cases scale with
  | none =>
      unfold EndsNumber at hrest
      simp only [scaled, List.nil_append]
      unfold parseScale?
      split <;> first | rfl | simp at hrest
  | some scale =>
      obtain ⟨sign, digits⟩ := scale
      have hrun := digitRun?_append (hsome _ rfl) (hdigits _ rfl) fun c hc => (hrest c hc).1
      simp only at hrun
      rcases hsign _ rfl with hnone | hplus | hminus
      · simp only at hnone
        subst hnone
        simp only [scaled, List.nil_append, List.cons_append]
        rw [parseScale?_unsigned (head?_digits (hdigits _ rfl) (hsome _ rfl) (by decide))
          (head?_digits (hdigits _ rfl) (hsome _ rfl) (by decide)), hrun]
        rfl
      · simp only at hplus
        subst hplus
        simp [scaled, parseScale?, hrun]
      · simp only at hminus
        subst hminus
        simp [scaled, parseScale?, hrun]

/-- An exponent ends the digits before it, as does whatever ends a number. -/
theorem head?_scaled_append {scale : Option Scale} (hrest : EndsNumber rest) :
    ∀ c ∈ (scaled scale ++ rest).head?, isDigit c = false ∧ c ≠ '.' := by
  cases scale with
  | none => exact fun c hc => ⟨(hrest c hc).1, (hrest c hc).2.1⟩
  | some scale =>
      rintro c ⟨⟩
      decide

theorem parseFraction?_pointed {fraction : List Char} (hdigits : ∀ c ∈ fraction, isDigit c = true)
    (hrest : ∀ c ∈ rest.head?, isDigit c = false ∧ c ≠ '.') :
    parseFraction? (pointed fraction ++ rest) = some (fraction, rest) := by
  by_cases hnone : fraction = []
  · subst hnone
    simp only [pointed, List.isEmpty_nil, if_true, List.nil_append]
    unfold parseFraction?
    split
    · exact absurd rfl (hrest '.' rfl).2
    · rfl
  · have hrun := digitRun?_append hnone hdigits fun c hc => (hrest c hc).1
    simpa [pointed, hnone, parseFraction?] using hrun

/-- The text of a number, whatever ends it. -/
theorem parseNumeral?_text {n : Numeral} (hn : n.IsPlain) (hrest : EndsNumber rest) :
    parseNumeral? (n.text ++ rest) = some (n, rest) := by
  obtain ⟨negative, whole, fraction, scale⟩ := n
  have hscale := parseScale?_scaled hn.scale_sign hn.scale_ne_nil hn.scale hrest
  have hexponent : ∀ c ∈ (scaled scale ++ rest).head?, isDigit c = false ∧ c ≠ '.' :=
    head?_scaled_append hrest
  have hfraction := parseFraction?_pointed hn.fraction hexponent
  have hbehind : ∀ c ∈ (pointed fraction ++ (scaled scale ++ rest)).head?, isDigit c = false := by
    by_cases hnone : fraction = []
    · subst hnone
      exact fun c hc => (hexponent c hc).1
    · rw [pointed, if_neg (by simpa using hnone)]
      rintro c ⟨⟩
      decide
  have hwhole := digitRun?_append hn.whole_ne_nil hn.whole hbehind
  have hguard : (whole.head? ≠ some '0' || whole.length = 1) = true := by simpa using hn.lead
  rw [Numeral.text_eq, Numeral.body, List.append_assoc, List.append_assoc, List.append_assoc]
  cases negative
  · have hunsigned : (whole ++ (pointed fraction ++ (scaled scale ++ rest))).head? ≠ some '-' :=
      head?_digits hn.whole hn.whole_ne_nil (by decide)
    simp only [Bool.false_eq_true, if_false, List.nil_append]
    unfold parseNumeral?
    split
    rename_i hsign
    split at hsign
    · rename_i hminus
      exact absurd (congrArg List.head? hminus) hunsigned
    · cases hsign
      exact bind_of_read hwhole (bind_of_read (guard_of_holds hguard)
        (bind_of_read hfraction (bind_of_read hscale rfl)))
  · unfold parseNumeral?
    exact bind_of_read hwhole (bind_of_read (guard_of_holds hguard)
      (bind_of_read hfraction (bind_of_read hscale rfl)))

/-! ## Reading numbers -/

/-- A number of 64 bits has room for all of its digits. -/
theorem takeDigits_of_lt {significand : Nat} {values : List Nat}
    (hfits : appendDigits 10 significand values < wordLimit) :
    takeDigits significand values = (appendDigits 10 significand values, []) := by
  induction values generalizing significand with
  | nil => rfl
  | cons value rest ih =>
      have hvalue : 10 * significand + value < wordLimit :=
        Nat.lt_of_le_of_lt (le_appendDigits (by decide) _ rest) hfits
      rw [takeDigits, if_pos (by omega), Nat.mul_comm significand]
      exact ih hfits

theorem takeDigits_decimalDigits {n : Nat} (hfits : n < wordLimit) :
    takeDigits 0 ((decimalDigits n).filterMap digitValue?) = (n, []) := by
  have hvalue : appendDigits 10 0 ((decimalDigits n).filterMap digitValue?) = n :=
    decimalValue_decimalDigits n
  rw [takeDigits_of_lt (by rwa [hvalue]), hvalue]

/-- An integer of 64 bits, signed or not, is read as itself. -/
theorem readNumber_ofInt {n : Int} (hlow : -(2 ^ 63) ≤ n) (hhigh : n < 2 ^ 64) :
    readNumber (.ofInt n) = some (.int n) := by
  have hdigits := takeDigits_decimalDigits (n := n.natAbs) (by
    change n.natAbs < 18446744073709551616
    omega)
  unfold readNumber Numeral.ofInt
  simp only [hdigits, List.isEmpty_nil, Option.isNone_none, Bool.and_true, if_true]
  by_cases hnegative : n < 0
  · have hword : ¬ (n.natAbs = 0 ∨ Nat.pow 2 63 < n.natAbs) := by
      change ¬ (n.natAbs = 0 ∨ 9223372036854775808 < n.natAbs)
      omega
    have habs : -(n.natAbs : Int) = n := by omega
    simp only [hnegative, decide_true, Bool.not_true, Bool.false_eq_true, if_false]
    rw [if_neg (by simpa using hword), habs]
  · have habs : (n.natAbs : Int) = n := by omega
    simp only [hnegative, decide_false, Bool.not_false, if_true]
    rw [habs]

theorem readNumber_ofNat {n : Nat} (hfits : n < UInt64.size) :
    readNumber (.ofNat n) = some (.int n) := by
  rw [← Numeral.ofInt_natCast]
  refine readNumber_ofInt (by omega) ?_
  change n < 18446744073709551616 at hfits
  omega

/-- With a point or an exponent a number is never read as an integer. -/
theorem readNumber_ne_int {n : Numeral} (hn : n.fraction ≠ [] ∨ n.scale ≠ none) (k : Int) :
    readNumber n ≠ some (.int k) := by
  have hfloat : (n.fraction.isEmpty && n.scale.isNone) = false := by
    rcases hn with hfraction | hscale
    · rw [List.isEmpty_eq_false_iff.mpr hfraction, Bool.false_and]
    · rw [Option.isNone_eq_false_iff.mpr (Option.isSome_iff_ne_none.mpr hscale), Bool.and_false]
  unfold readNumber
  simp only [hfloat, Bool.false_and, Bool.false_eq_true, if_false]
  split
  · intro hint
    obtain ⟨x, _, hx⟩ := Option.map_eq_some_iff.mp hint
    cases hx
  · split <;> nofun

end Json

end MetricCatalog
