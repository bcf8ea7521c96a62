/-! Dates of the proleptic Gregorian calendar, years 1 to 9999.

A date is a valid triple of year, month and day. Its ordinal counts days from the first of January of
year 1, which has ordinal 1; `ofOrdinal` goes back, cycle by cycle of 400, 100, 4 and 1 years. -/
namespace ConsentGate.Calendar
set_option autoImplicit false

def isLeap (year : Nat) : Bool := year % 4 == 0 && (year % 100 != 0 || year % 400 == 0)

def daysInMonth (year month : Nat) : Nat :=
  if month = 2 then (if isLeap year then 29 else 28)
  else if month = 4 ∨ month = 6 ∨ month = 9 ∨ month = 11 then 30
  else 31

def lastYear : Nat := 9999

/-- Year, month and day name a day of the calendar. -/
abbrev ValidDate (year month day : Nat) : Prop :=
  1 ≤ year ∧ year ≤ lastYear ∧ 1 ≤ month ∧ month ≤ 12 ∧ 1 ≤ day ∧ day ≤ daysInMonth year month

structure Date where
  year : Nat
  month : Nat
  day : Nat
  valid : ValidDate year month day := by decide
  deriving DecidableEq, Repr

/-- Every month has a first day. -/
theorem one_le_daysInMonth (year month : Nat) : 1 ≤ daysInMonth year month := by
  unfold daysInMonth
  split
  · split <;> decide
  · split <;> decide

/-! ## Ordinals -/

/-- Days before the first of January of a year. -/
def daysBeforeYear (year : Nat) : Nat :=
  let y := year - 1
  y * 365 + y / 4 - y / 100 + y / 400

/-- Days of a year before the first of a month. -/
def daysBeforeMonth (year : Nat) : (month : Nat) → Nat
  | 0 => 0
  | 1 => 0
  | month + 1 => daysBeforeMonth year month + daysInMonth year month

/-- The month that holds day `d` of a year, counted from zero, searched from month `m` on, and the
day's number in it. -/
def monthOfDay (year : Nat) : (fuel m d : Nat) → Nat × Nat
  | 0, m, d => (m, d + 1)
  | fuel + 1, m, d =>
    if d < daysInMonth year m then (m, d + 1)
    else monthOfDay year fuel (m + 1) (d - daysInMonth year m)

/-- The year that holds an ordinal, and the day of the year counted from zero. -/
def yearOfOrdinal (ordinal : Nat) : Nat × Nat :=
  let n := ordinal - 1
  let n400 := n / 146097
  let r := n % 146097
  let n100 := r / 36524
  let r := r % 36524
  let n4 := r / 1461
  let r := r % 1461
  let n1 := r / 365
  let year := n400 * 400 + n100 * 100 + n4 * 4 + n1
  if n1 = 4 ∨ n100 = 4 then (year, 365) else (year + 1, r % 365)

/-- Year, month and day of an ordinal, also beyond the last year. -/
def civilOfOrdinal (ordinal : Nat) : Nat × Nat × Nat :=
  let (year, d) := yearOfOrdinal ordinal
  let (month, day) := monthOfDay year 11 1 d
  (year, month, day)

namespace Date

def ordinal (d : Date) : Nat :=
  daysBeforeYear d.year + daysBeforeMonth d.year d.month + d.day

def ofCivil? (year month day : Nat) : Option Date :=
  if h : ValidDate year month day then some ⟨year, month, day, h⟩ else none

def ofOrdinal? (ordinal : Int) : Option Date :=
  if ordinal < 1 then none
  else
    let (year, month, day) := civilOfOrdinal ordinal.toNat
    ofCivil? year month day

/-- The first day of the month. -/
def monthStart (d : Date) : Date where
  year := d.year
  month := d.month
  day := 1
  valid := by
    have h := d.valid
    have h1 := one_le_daysInMonth d.year d.month
    exact ⟨h.1, h.2.1, h.2.2.1, h.2.2.2.1, Nat.le_refl 1, h1⟩

end Date

/-- The day of the week, Monday being 0. -/
def weekday (year month day : Nat) : Nat :=
  (daysBeforeYear year + daysBeforeMonth year month + day + 6) % 7

/-! ## Week dates -/

/-- A year has a week 53 when it starts on a Thursday, or on a Wednesday and is a leap year. -/
def hasWeek53 (year : Nat) : Bool :=
  let first := weekday year 1 1
  first == 3 || (first == 2 && isLeap year)

/-- The ordinal of the Monday of week 1, the week of the year's first Thursday. -/
def firstMonday (year : Nat) : Int :=
  let firstDay : Int := daysBeforeYear year + 1
  let first : Int := weekday year 1 1
  if first > 3 then firstDay - first + 7 else firstDay - first

end ConsentGate.Calendar
