/-
# Instants

An instant is a point of universal time with nanosecond precision. A leap second
is kept apart from the second after it: it is the second before with a thousand
million nanoseconds more.
-/

namespace MetricCatalog

/-- A point of universal time. -/
structure Instant where
  /-- Seconds since the first of January 1970, leap seconds not counted. -/
  seconds : Int
  /-- Nanoseconds within the second, from a thousand million on in a leap second. -/
  nanos : Nat
  deriving DecidableEq, Repr, Inhabited

namespace Instant

/-- Earlier or at the same time. -/
def le (first second : Instant) : Bool :=
  first.seconds < second.seconds ||
    (first.seconds = second.seconds && first.nanos ≤ second.nanos)

instance : LE Instant := ⟨fun first second => first.le second = true⟩

instance (first second : Instant) : Decidable (first ≤ second) :=
  inferInstanceAs (Decidable (first.le second = true))

/-- The instant some nanoseconds later. -/
def advance (instant : Instant) (nanoseconds : Nat) : Instant :=
  let total := instant.nanos + nanoseconds
  ⟨instant.seconds + ((total / 1000000000 : Nat) : Int), total % 1000000000⟩

theorem le_iff (first second : Instant) :
    first ≤ second ↔
      first.seconds < second.seconds ∨
        (first.seconds = second.seconds ∧ first.nanos ≤ second.nanos) := by
  change first.le second = true ↔ _
  simp [le]

theorem le_refl (instant : Instant) : instant ≤ instant := by
  rw [le_iff]
  exact Or.inr ⟨rfl, Nat.le_refl _⟩

theorem le_trans {first second third : Instant}
    (hfirst : first ≤ second) (hsecond : second ≤ third) : first ≤ third := by
  rw [le_iff] at *
  omega

end Instant

/-- A day of the proleptic Gregorian calendar. -/
structure CivilDate where
  /-- The year, zero for the year before the year one. -/
  year : Int
  /-- The month, from one to twelve. -/
  month : Nat
  /-- The day of the month, from one on. -/
  day : Nat
  deriving DecidableEq, Repr

namespace CivilDate

/-- Whether the year has a leap day. -/
def isLeapYear (year : Int) : Bool :=
  year % 4 = 0 && (year % 100 ≠ 0 || year % 400 = 0)

/-- The number of days of a month. -/
def daysInMonth (year : Int) (month : Nat) : Nat :=
  match month with
  | 2 => if isLeapYear year then 29 else 28
  | 4 | 6 | 9 | 11 => 30
  | _ => 31

/-- Whether the month and the day exist. -/
def isValid (date : CivilDate) : Bool :=
  1 ≤ date.month && date.month ≤ 12 && 1 ≤ date.day &&
    date.day ≤ daysInMonth date.year date.month

/-- The number of days from the first of January 1970 to the date.

Years are counted from March on, so that the leap day is the last day of its
year; four hundred years have 146097 days. -/
def toDays (date : CivilDate) : Int :=
  let year := if date.month ≤ 2 then date.year - 1 else date.year
  let era := year / 400
  let yearOfEra := year % 400
  let month : Int := ((date.month : Int) + 9) % 12
  let dayOfYear := (153 * month + 2) / 5 + date.day - 1
  let dayOfEra := yearOfEra * 365 + yearOfEra / 4 - yearOfEra / 100 + dayOfYear
  era * 146097 + dayOfEra - 719468

/-- The date that many days after the first of January 1970. -/
def ofDays (days : Int) : CivilDate :=
  let shifted := days + 719468
  let era := shifted / 146097
  let dayOfEra := shifted % 146097
  let yearOfEra :=
    (dayOfEra - dayOfEra / 1460 + dayOfEra / 36524 - dayOfEra / 146096) / 365
  let dayOfYear := dayOfEra - (365 * yearOfEra + yearOfEra / 4 - yearOfEra / 100)
  let month := (5 * dayOfYear + 2) / 153
  let day := (dayOfYear - (153 * month + 2) / 5 + 1).toNat
  let civilMonth := (if month < 10 then month + 3 else month - 9).toNat
  let year := yearOfEra + era * 400
  ⟨if civilMonth ≤ 2 then year + 1 else year, civilMonth, day⟩

end CivilDate

end MetricCatalog
