/-
# The calendar is its own inverse

Four hundred years are an era. A day of an era is made of whole centuries, whole
spans of four years, whole years and the days that remain; from these parts both
ways through the calendar can be followed. Every day has a date, the date exists,
and it is the date of that day only.
-/

import MetricCatalog.Time.Instant

namespace MetricCatalog

namespace CivilDate

/-- A day of an era by its parts, as the years are counted from March on. The last year of a span
has a day more, but for the last span of a century; there it is only the last century whose last
year has one. -/
structure EraDay where
  century : Int
  /-- Four years with a leap day at their end. -/
  span : Int
  year : Int
  day : Int
  century_bounds : 0 ≤ century ∧ century ≤ 3
  span_bounds : 0 ≤ span ∧ span ≤ 24
  year_bounds : 0 ≤ year ∧ year ≤ 3
  day_bounds : 0 ≤ day ∧ day ≤ 365
  leap : day = 365 → year = 3 ∧ (span = 24 → century = 3)

namespace EraDay

/-- The number of days before it in its era. -/
def dayOfEra (parts : EraDay) : Int :=
  36524 * parts.century + 1461 * parts.span + 365 * parts.year + parts.day

/-- The number of years before it in its era. -/
def yearOfEra (parts : EraDay) : Int := 100 * parts.century + 4 * parts.span + parts.year

end EraDay

theorem exists_eraDay {days : Int} (hlow : 0 ≤ days) (hhigh : days < 146097) :
    ∃ parts : EraDay, parts.dayOfEra = days := by
  unfold EraDay.dayOfEra
  by_cases hlast : days = 146096
  · exact ⟨⟨3, 24, 3, 365, by omega, by omega, by omega, by omega, by omega⟩, by simp only; omega⟩
  · by_cases hleap : days % 36524 % 1461 = 1460
    · exact ⟨⟨days / 36524, days % 36524 / 1461, 3, 365, by omega, by omega, by omega, by omega,
        by omega⟩, by simp only; omega⟩
    · exact ⟨⟨days / 36524, days % 36524 / 1461, days % 36524 % 1461 / 365,
        days % 36524 % 1461 % 365, by omega, by omega, by omega, by omega, by omega⟩,
        by simp only; omega⟩

variable (parts : EraDay)

/-- The year of the era, by the formula that takes the leap days out first. -/
theorem EraDay.yearOfEra_eq :
    (parts.dayOfEra - parts.dayOfEra / 1460 + parts.dayOfEra / 36524 -
      parts.dayOfEra / 146096) / 365 = parts.yearOfEra := by
  obtain ⟨century, span, year, day, hcentury, hspan, hyear, hday, hleap⟩ := parts
  simp only [dayOfEra, yearOfEra] at *
  generalize hdays : 36524 * century + 1461 * span + 365 * year + day = days
  have hfours : days / 1460 = 25 * century + span ∨
      days / 1460 = 25 * century + span + 1 := by omega
  by_cases hlast : days = 146096
  · omega
  · have hcenturies : days / 36524 = century := by omega
    have hera : days / 146096 = 0 := by omega
    omega

theorem EraDay.dayOfYear_eq :
    parts.dayOfEra - (365 * parts.yearOfEra + parts.yearOfEra / 4 - parts.yearOfEra / 100) =
      parts.day := by
  obtain ⟨century, span, year, day, hcentury, hspan, hyear, hday, hleap⟩ := parts
  simp only [dayOfEra, yearOfEra]
  omega

/-! ## The date of a day -/

/-- The number of days after the first of January 1970. -/
def EraDay.days (era : Int) : Int := era * 146097 + parts.dayOfEra - 719468

/-- The month, counted from March on. -/
def EraDay.month : Int := (5 * parts.day + 2) / 153

/-- The day of the month. -/
def EraDay.dayOfMonth : Int := parts.day - (153 * parts.month + 2) / 5 + 1

/-- The date of the day; January and February belong to the year after. -/
def EraDay.date (era : Int) : CivilDate :=
  let month := (if parts.month < 10 then parts.month + 3 else parts.month - 9).toNat
  let year := parts.yearOfEra + era * 400
  ⟨if month ≤ 2 then year + 1 else year, month, parts.dayOfMonth.toNat⟩

theorem exists_ofDays_eq_date (days : Int) :
    ∃ (parts : EraDay) (era : Int), parts.days era = days ∧ ofDays days = parts.date era := by
  obtain ⟨parts, hparts⟩ := exists_eraDay (Int.emod_nonneg (days + 719468) (by decide))
    (Int.emod_lt_of_pos (days + 719468) (by decide))
  refine ⟨parts, (days + 719468) / 146097, ?_, ?_⟩
  · unfold EraDay.days
    omega
  · unfold ofDays EraDay.date EraDay.dayOfMonth EraDay.month
    simp only [← hparts, parts.yearOfEra_eq, parts.dayOfYear_eq]

theorem EraDay.month_bounds : 0 ≤ parts.month ∧ parts.month ≤ 11 := by
  have hday := parts.day_bounds
  unfold month
  omega

theorem EraDay.dayOfMonth_pos : 1 ≤ parts.dayOfMonth := by
  have hday := parts.day_bounds
  unfold dayOfMonth month
  omega

theorem EraDay.yearOfEra_bounds : 0 ≤ parts.yearOfEra ∧ parts.yearOfEra < 400 := by
  obtain ⟨century, span, year, day, hcentury, hspan, hyear, hday, hleap⟩ := parts
  simp only [yearOfEra]
  omega

theorem toDays_date (era : Int) : (parts.date era).toDays = parts.days era := by
  have hmonth := parts.month_bounds
  have hyear := parts.yearOfEra_bounds
  have hdayOfYear := parts.dayOfYear_eq
  have hday : (parts.dayOfMonth.toNat : Int) = parts.day - (153 * parts.month + 2) / 5 + 1 :=
    Int.toNat_of_nonneg (Int.le_trans (by decide) parts.dayOfMonth_pos)
  have hera : (parts.yearOfEra + era * 400) / 400 = era := by omega
  have hyearOfEra : (parts.yearOfEra + era * 400) % 400 = parts.yearOfEra := by omega
  unfold toDays EraDay.date EraDay.days
  by_cases hautumn : parts.month < 10
  · have hlate : ¬ (parts.month + 3).toNat ≤ 2 := by omega
    have hback : (((parts.month + 3).toNat : Int) + 9) % 12 = parts.month := by omega
    simp only [hautumn, if_true, hlate, if_false, hback, hera, hyearOfEra, hday]
    omega
  · have hearly : (parts.month - 9).toNat ≤ 2 := by omega
    have hback : (((parts.month - 9).toNat : Int) + 9) % 12 = parts.month := by omega
    simp only [hautumn, if_false, hearly, if_true, Int.add_sub_cancel, hback, hera, hyearOfEra,
      hday]
    omega

theorem isLeapYear_date {era : Int} (hday : parts.day = 365) :
    isLeapYear (parts.yearOfEra + era * 400 + 1) = true := by
  obtain ⟨century, span, year, day, hcentury, hspan, hyear, hdays, hleap⟩ := parts
  simp only [isLeapYear, EraDay.yearOfEra, Bool.and_eq_true, Bool.or_eq_true]
  simp only at hday
  have hparts := hleap hday
  by_cases hlast : span = 24
  · exact ⟨decide_eq_true (by omega), Or.inr (decide_eq_true (by omega))⟩
  · exact ⟨decide_eq_true (by omega), Or.inl (decide_eq_true (by omega))⟩

/-- No month has more days than the calendar gives it. The months are told apart one by one, since
their lengths follow no rule that the calendar could be compared with. -/
theorem dayOfMonth_le (era : Int) :
    parts.dayOfMonth.toNat ≤ daysInMonth (parts.date era).year (parts.date era).month := by
  have hday := parts.day_bounds
  have hbounds := parts.month_bounds
  have hspan : 153 * parts.month ≤ 5 * parts.day + 2 ∧
      5 * parts.day + 2 < 153 * parts.month + 153 := by
    unfold EraDay.month
    omega
  by_cases hfebruary : parts.month = 11
  · simp only [EraDay.date, EraDay.dayOfMonth, hfebruary]
    simp only [Int.reduceLT, Int.reduceSub, Int.reduceToNat, daysInMonth, if_false, Nat.le_refl,
      if_true]
    by_cases hleap : parts.day = 365
    · rw [if_pos (isLeapYear_date parts hleap), hleap]
      decide
    · split <;> omega
  · have hothers : parts.month = 0 ∨ parts.month = 1 ∨ parts.month = 2 ∨ parts.month = 3 ∨
        parts.month = 4 ∨ parts.month = 5 ∨ parts.month = 6 ∨ parts.month = 7 ∨
        parts.month = 8 ∨ parts.month = 9 ∨ parts.month = 10 := by omega
    rcases hothers with h | h | h | h | h | h | h | h | h | h | h
    all_goals
      simp only [EraDay.date, EraDay.dayOfMonth, h] at hspan ⊢
      simp [daysInMonth]
      omega

theorem isValid_date (era : Int) : (parts.date era).isValid = true := by
  have hbounds := parts.month_bounds
  have hpositive := parts.dayOfMonth_pos
  have hmonth : 1 ≤ (parts.date era).month ∧ (parts.date era).month ≤ 12 := by
    unfold EraDay.date
    simp only
    split <;> omega
  have hday : 1 ≤ (parts.date era).day := by
    change 1 ≤ parts.dayOfMonth.toNat
    omega
  simp only [isValid, Bool.and_eq_true, decide_eq_true_eq]
  exact ⟨⟨⟨hmonth.1, hmonth.2⟩, hday⟩, dayOfMonth_le parts era⟩

/-- Every day has a date, and the date is that of the day. -/
theorem toDays_ofDays (days : Int) : (ofDays days).toDays = days := by
  obtain ⟨parts, era, hdays, hdate⟩ := exists_ofDays_eq_date days
  rw [hdate, toDays_date, hdays]

/-- The date of a day exists in the calendar. -/
theorem isValid_ofDays (days : Int) : (ofDays days).isValid = true := by
  obtain ⟨parts, era, _, hdate⟩ := exists_ofDays_eq_date days
  rw [hdate]
  exact isValid_date parts era

end CivilDate

end MetricCatalog
