/-
# Instants read back

The written form of an instant of the years 0 to 9999 is read as that instant, to
the nanosecond, and a leap second is read as a leap second.
-/

import MetricCatalog.Proofs.Text.Blank
import MetricCatalog.Proofs.Text.Digits
import MetricCatalog.Proofs.Time.Calendar
import MetricCatalog.Time.Timestamp

namespace MetricCatalog

namespace Instant

open Text

/-- The year in which the instant lies. -/
def year (instant : Instant) : Int := (CivilDate.ofDays (instant.seconds / 86400)).year

/-- The instant lies in the years 0 to 9999. Its nanoseconds are those of one second, or of two if
it is the last one of its minute: then the second of them is a leap second. -/
structure IsOrdinary (instant : Instant) : Prop where
  year_nonneg : 0 ≤ instant.year
  year_le : instant.year ≤ 9999
  nanos_lt : instant.nanos < 1000000000 ∨
    (instant.nanos < 2000000000 ∧ instant.seconds % 60 = 59)

/-! ## The parts of a written instant -/

variable {width n low high : Nat} {rest : List Char}

/-- A number as wide as the reader allows ends there, whatever stands behind it. -/
theorem readNumber_paddedDigits (hwidth : 0 < width) (hfits : n < 10 ^ width) :
    readNumber width (paddedDigits width n ++ rest) = some (n, rest) := by
  have hlength := length_paddedDigits hwidth hfits
  have hdigits : ((paddedDigits width n ++ rest).take width).takeWhile isDigit =
      paddedDigits width n := by
    have hnothing : ∀ c ∈ ([] : List Char).head?, isDigit c = false := by simp
    rw [List.take_append_of_le_length (Nat.le_of_eq hlength.symm),
      List.take_of_length_le (Nat.le_of_eq hlength)]
    simpa using takeWhile_run (fun c => isDigit_of_mem_paddedDigits) hnothing
  simp only [readNumber, hdigits, decimal?_paddedDigits, Option.map_some, List.drop_left]

theorem readField_paddedDigits (hwidth : 0 < width) (hfits : n < 10 ^ width) (hlow : low ≤ n)
    (hhigh : n ≤ high) :
    readField width low high (paddedDigits width n ++ rest) = some (n, rest) := by
  rw [readField, trimStart_digits (fun c => isDigit_of_mem_paddedDigits) paddedDigits_ne_nil,
    readNumber_paddedDigits hwidth hfits]
  simp [hlow, hhigh]

theorem readMark_cons {mark : Char} (hmark : isBlank mark = false) :
    readMark mark (mark :: rest) = some rest := by
  rw [readMark, trimStart_cons hmark]
  simp

theorem readYear_paddedDigits (hfits : n < 10 ^ 4) :
    readYear (paddedDigits 4 n ++ rest) = some ((n : Int), rest) := by
  have hread : readNumber 4 (paddedDigits 4 n ++ rest) = some (n, rest) :=
    readNumber_paddedDigits (by decide) hfits
  have hdigits : ∀ c ∈ paddedDigits 4 n, isDigit c = true := fun c => isDigit_of_mem_paddedDigits
  unfold readYear
  rw [trimStart_digits hdigits paddedDigits_ne_nil]
  split
  · rename_i hminus
    exact absurd (congrArg List.head? hminus)
      (head?_digits hdigits paddedDigits_ne_nil (by decide))
  · rename_i hplus
    exact absurd (congrArg List.head? hplus)
      (head?_digits hdigits paddedDigits_ne_nil (by decide))
  · rw [hread]
    rfl

/-- A digit is a number to begin with. -/
theorem exists_readNumber_one {c : Char} (hc : isDigit c = true) (rest : List Char) :
    ∃ read, readNumber 1 (c :: rest) = some read := by
  obtain ⟨value, hvalue⟩ := Option.isSome_iff_exists.mp hc
  exact ⟨(value, rest), by simp [readNumber, hc, decimal?, hvalue, appendDigits]⟩

/-- A fraction of up to nine digits counts in nanoseconds. -/
theorem readFraction_point (hwidth : 0 < width) (hnine : width ≤ 9) (hfits : n < 10 ^ width) :
    readFraction ('.' :: (paddedDigits width n ++ ['Z'])) =
      some (n * 10 ^ (9 - width), ['Z']) := by
  have hlength := length_paddedDigits hwidth hfits
  have hall : ∀ c ∈ paddedDigits width n, isDigit c = true := fun c => isDigit_of_mem_paddedDigits
  have hbehind : ∀ c ∈ ['Z'].head?, isDigit c = false := by
    intro c hc
    cases hc
    decide
  have hfront : ∀ c ∈ (['Z'].take (9 - width)).head?, isDigit c = false := by
    cases 9 - width with
    | zero => simp
    | succ count => exact hbehind
  have htake : (paddedDigits width n ++ ['Z']).take 9 =
      paddedDigits width n ++ ['Z'].take (9 - width) := by
    rw [List.take_append, hlength, List.take_of_length_le (by omega)]
  have hone : ∃ read, readNumber 1 (paddedDigits width n ++ ['Z']) = some read := by
    cases hcons : paddedDigits width n with
    | nil => exact absurd hcons paddedDigits_ne_nil
    | cons first others =>
        exact exists_readNumber_one (hall first (hcons ▸ List.mem_cons_self)) _
  obtain ⟨read, hread⟩ := hone
  simp only [readFraction, hread, htake, takeWhile_run hall hfront,
    dropWhile_run hall hbehind, decimalValue_paddedDigits, hlength]
  rfl

/-- Whatever the nanoseconds of a second, their fraction is read to the last of them. -/
theorem readFraction_formatFraction {nanos : Nat} (hnanos : nanos < 1000000000) :
    readFraction (formatFraction nanos ++ ['Z']) = some (nanos, ['Z']) := by
  unfold formatFraction
  split
  · rename_i hnone
    rw [hnone]
    rfl
  · split
    · have hread := readFraction_point (by decide) (by decide)
        (by omega : nanos / 1000000 < 10 ^ 3)
      rw [List.cons_append, hread]
      congr 2
      omega
    · split
      · have hread := readFraction_point (by decide) (by decide)
          (by omega : nanos / 1000 < 10 ^ 6)
        rw [List.cons_append, hread]
        congr 2
        omega
      · have hread := readFraction_point (by decide) (by decide)
          (by omega : nanos < 10 ^ 9)
        rw [List.cons_append, hread, Nat.sub_self, Nat.pow_zero, Nat.mul_one]

/-! ## Whole instants -/

/-- What of the second is shown behind the minutes: a leap second is the sixtieth. -/
def shownSecond (instant : Instant) : Nat :=
  if 1000000000 ≤ instant.nanos then (instant.seconds % 86400).toNat % 60 + 1
  else (instant.seconds % 86400).toNat % 60

/-- What of the nanoseconds is shown. -/
def shownNanos (instant : Instant) : Nat :=
  if 1000000000 ≤ instant.nanos then instant.nanos - 1000000000 else instant.nanos

theorem date_bounds {date : CivilDate} (hvalid : date.isValid = true) :
    (1 ≤ date.month ∧ date.month ≤ 12) ∧ 1 ≤ date.day ∧ date.day ≤ 31 := by
  have hlength : CivilDate.daysInMonth date.year date.month ≤ 31 := by
    unfold CivilDate.daysInMonth
    split
    · split <;> decide
    all_goals decide
  simp only [CivilDate.isValid, Bool.and_eq_true, decide_eq_true_eq] at hvalid
  omega

theorem shownNanos_lt {instant : Instant} (hordinary : instant.IsOrdinary) :
    instant.shownNanos < 1000000000 := by
  have hnanos := hordinary.nanos_lt
  unfold shownNanos
  split <;> omega

theorem shownSecond_le {instant : Instant} : instant.shownSecond ≤ 60 := by
  unfold shownSecond
  split <;> omega

/-- The text, part by part. -/
theorem toList_format {instant : Instant} (hordinary : instant.IsOrdinary) {date : CivilDate}
    (hdate : CivilDate.ofDays (instant.seconds / 86400) = date) {second : Nat}
    (hsecond : (instant.seconds % 86400).toNat = second) :
    instant.format.toList =
      paddedDigits 4 date.year.toNat ++ '-' :: (paddedDigits 2 date.month ++ '-' ::
        (paddedDigits 2 date.day ++ 'T' :: (paddedDigits 2 (second / 3600) ++ ':' ::
          (paddedDigits 2 (second / 60 % 60) ++ ':' :: (paddedDigits 2 instant.shownSecond ++
            (formatFraction instant.shownNanos ++ ['Z'])))))) := by
  have hyear : formatYear date.year = paddedDigits 4 date.year.toNat := by
    have hlow := hordinary.year_nonneg
    have hhigh := hordinary.year_le
    rw [year, hdate] at hlow hhigh
    simp [formatYear, hlow, hhigh]
  simp only [format, hdate, hsecond, String.toList_ofList, hyear, List.append_assoc,
    List.cons_append, shownSecond, shownNanos]

/-- The seconds are put together again from what is shown. -/
theorem seconds_eq {instant : Instant} (hordinary : instant.IsOrdinary) {second : Nat}
    (hsecond : (instant.seconds % 86400).toNat = second) :
    instant.seconds / 86400 * 86400 +
        ((second / 3600 * 3600 + second / 60 % 60 * 60 +
          (if instant.shownSecond = 60 then 59 else instant.shownSecond) : Nat) : Int) =
      instant.seconds := by
  have hnanos := hordinary.nanos_lt
  unfold shownSecond
  rw [hsecond]
  split <;> split <;> omega

theorem nanos_eq {instant : Instant} (hordinary : instant.IsOrdinary) :
    (if instant.shownSecond = 60 then instant.shownNanos + 1000000000 else instant.shownNanos) =
      instant.nanos := by
  have hnanos := hordinary.nanos_lt
  unfold shownSecond shownNanos
  split <;> split <;> omega

/-- An instant of the years 0 to 9999 is read back from its written form. -/
theorem parse?_format {instant : Instant} (hordinary : instant.IsOrdinary) :
    parse? instant.format = some instant := by
  have hvalid := CivilDate.isValid_ofDays (instant.seconds / 86400)
  have hdays := CivilDate.toDays_ofDays (instant.seconds / 86400)
  have hlow := hordinary.year_nonneg
  have hhigh := hordinary.year_le
  unfold year at hlow hhigh
  generalize hdate : CivilDate.ofDays (instant.seconds / 86400) = date at *
  generalize hsecond : (instant.seconds % 86400).toNat = second
  obtain ⟨⟨hfirstMonth, hlastMonth⟩, hfirstDay, hlastDay⟩ := date_bounds hvalid
  have hyear (rest) : readYear (paddedDigits 4 date.year.toNat ++ rest) =
      some (date.year, rest) := by
    rw [readYear_paddedDigits (by omega), Int.toNat_of_nonneg hlow]
  have hmonth (rest) : readField 2 1 12 (paddedDigits 2 date.month ++ rest) =
      some (date.month, rest) :=
    readField_paddedDigits (by decide) (by omega) hfirstMonth hlastMonth
  have hday (rest) : readField 2 1 31 (paddedDigits 2 date.day ++ rest) = some (date.day, rest) :=
    readField_paddedDigits (by decide) (by omega) hfirstDay hlastDay
  have hhour (rest) : readField 2 0 23 (paddedDigits 2 (second / 3600) ++ rest) =
      some (second / 3600, rest) :=
    readField_paddedDigits (by decide) (by omega) (by omega) (by omega)
  have hminute (rest) : readField 2 0 59 (paddedDigits 2 (second / 60 % 60) ++ rest) =
      some (second / 60 % 60, rest) :=
    readField_paddedDigits (by decide) (by omega) (by omega) (by omega)
  have hshown (rest) : readField 2 0 60 (paddedDigits 2 instant.shownSecond ++ rest) =
      some (instant.shownSecond, rest) :=
    readField_paddedDigits (by decide) (Nat.lt_of_le_of_lt shownSecond_le (by decide))
      (Nat.zero_le _) shownSecond_le
  have hdash (rest) : readMark '-' ('-' :: rest) = some rest := readMark_cons (by decide)
  have hcolon (rest) : readMark ':' (':' :: rest) = some rest := readMark_cons (by decide)
  have hfraction := readFraction_formatFraction (shownNanos_lt hordinary)
  have hoffset : readOffset (trimStart ['Z']) = some (0, []) := by decide
  unfold parse?
  rw [toList_format hordinary hdate hsecond]
  refine bind_of_read (hyear _) (bind_of_read (hdash _) ?_)
  refine bind_of_read (hmonth _) (bind_of_read (hdash _) ?_)
  refine bind_of_read (hday _) (bind_of_read rfl ?_)
  refine bind_of_read (hhour _) (bind_of_read (hcolon _) ?_)
  refine bind_of_read (hminute _) (bind_of_read (hcolon _) ?_)
  refine bind_of_read (hshown _) (bind_of_read hfraction (bind_of_read hoffset ?_))
  have hrange : (decide (86400 ≤ (0 : Int).natAbs) || decide (262142 < date.year) ||
      decide (date.year < -262143)) = false := by
    simp only [Bool.or_eq_false_iff, decide_eq_false_iff_not]
    omega
  have hend : (trimStart []).isEmpty = true := rfl
  simp only [hvalid, hend, Bool.not_true, Bool.or_false, Bool.false_eq_true, if_false,
    hrange, hdays, Int.sub_zero, seconds_eq hordinary hsecond, nanos_eq hordinary]

end Instant

end MetricCatalog
