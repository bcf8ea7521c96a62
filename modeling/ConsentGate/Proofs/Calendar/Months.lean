import ConsentGate.Proofs.Calendar.Instants
import Mathlib.Order.Bounds.Basic

/-! The months of all years, those before year 1 too, on the scale of seconds since 1970.

The calendar repeats after 400 years (`yearDays_add_cycles`), so what holds of the years from 1 on holds
of all. One month ends no later than any later one begins (`monthEnd_le`): so an instant lies in one
month only, whose start is the last one before it (`InMonth.isGreatest`). -/
namespace ConsentGate.Calendar
set_option autoImplicit false

variable {year year' n n' : Int} {month month' : Nat}

/-! ## The cycle of 400 years -/

theorem isLeap_mod (year : Nat) : isLeap (year % 400) = isLeap year := by
  rw [Bool.eq_iff_iff, isLeap_eq_true, isLeap_eq_true]
  omega

theorem daysInMonth_mod (year month : Nat) : daysInMonth (year % 400) month = daysInMonth year month := by
  rw [daysInMonth, daysInMonth, isLeap_mod]

theorem daysBeforeMonth_mod (year month : Nat) :
    daysBeforeMonth (year % 400) month = daysBeforeMonth year month := by
  induction month with
  | zero => rfl
  | succ month ih =>
    rcases Nat.eq_zero_or_pos month with rfl | hmonth
    · rfl
    · rw [daysBeforeMonth_succ _ hmonth, daysBeforeMonth_succ _ hmonth, ih, daysInMonth_mod]

/-- The place of a year in the cycle. -/
def cycleYear (year : Int) : Nat := (year % 400).toNat

theorem cycleYear_natCast (year : Nat) : cycleYear year = year % 400 := by
  rw [cycleYear]
  omega

/-- Days from the first of January of year 1 to that of another year. -/
def yearDays (year : Int) : Int := (year - 1) * 365 + (year - 1) / 4 - (year - 1) / 100 + (year - 1) / 400

theorem yearDays_natCast {year : Nat} (h : 1 ≤ year) : yearDays year = daysBeforeYear year := by
  unfold yearDays daysBeforeYear
  dsimp only
  omega

theorem yearDays_add_cycles (year k : Int) : yearDays (year + 400 * k) = yearDays year + 146097 * k := by
  rw [yearDays, yearDays]
  omega

theorem yearDays_succ (year : Int) : yearDays (year + 1) = yearDays year + daysInYear (cycleYear year) := by
  -- In the cycle that begins with year 400 the lengths of years are known.
  have hyear : year = (cycleYear year + 400 : Nat) + 400 * (year / 400 - 1) := by
    rw [cycleYear]
    omega
  have hsucc : year + 1 = (cycleYear year + 400 + 1 : Nat) + 400 * (year / 400 - 1) := by omega
  have hlength : daysInYear (cycleYear year + 400) = daysInYear (cycleYear year) := by
    rw [daysInYear, daysInYear, ← isLeap_mod, Nat.add_mod_right, isLeap_mod]
  have hnext : daysBeforeYear (cycleYear year + 400 + 1) =
      daysBeforeYear (cycleYear year + 400) + daysInYear (cycleYear year) :=
    (daysBeforeYear_succ (by omega)).trans (by rw [hlength])
  have hdays : yearDays year = daysBeforeYear (cycleYear year + 400) + 146097 * (year / 400 - 1) := by
    conv => lhs; rw [hyear]
    rw [yearDays_add_cycles, yearDays_natCast (by omega)]
  rw [hsucc, yearDays_add_cycles, yearDays_natCast (by omega), hdays]
  omega

theorem yearDays_le (h : year ≤ year') : yearDays year ≤ yearDays year' := by
  rw [yearDays, yearDays]
  omega

/-! ## Months -/

/-- Seconds from 1970 to the start of a month. -/
def monthSeconds (year : Int) (month : Nat) : Int :=
  (yearDays year + daysBeforeMonth (cycleYear year) month - 719162) * 86400

/-- Seconds from 1970 to the end of a month. -/
def monthEnd (year : Int) (month : Nat) : Int :=
  monthSeconds year month + daysInMonth (cycleYear year) month * 86400

theorem monthEnd_eq_succ (hmonth : 1 ≤ month) : monthEnd year month = monthSeconds year (month + 1) := by
  rw [monthEnd, monthSeconds, monthSeconds, daysBeforeMonth_succ _ hmonth]
  omega

theorem monthSeconds_thirteen : monthSeconds year 13 = monthSeconds (year + 1) 1 := by
  have hfirst : daysBeforeMonth (cycleYear (year + 1)) 1 = 0 := rfl
  rw [monthSeconds, monthSeconds, daysBeforeMonth_thirteen, yearDays_succ, hfirst]
  omega

example : monthSeconds 1970 1 = 0 ∧ monthSeconds 2000 3 = 951868800 ∧
    monthSeconds 0 1 = -62167219200 := by decide

theorem monthSeconds_le (hmonth : 1 ≤ month) (h : month ≤ month') :
    monthSeconds year month ≤ monthSeconds year month' := by
  have hdays := daysBeforeMonth_le (cycleYear year) hmonth h
  rw [monthSeconds, monthSeconds]
  omega

/-- A month is over when a later one begins. -/
theorem monthEnd_le (hmonth : 1 ≤ month) (hlast : month ≤ 12) (hmonth' : 1 ≤ month')
    (h : year < year' ∨ (year = year' ∧ month < month')) :
    monthEnd year month ≤ monthSeconds year' month' := by
  rw [monthEnd_eq_succ hmonth]
  rcases h with hyear | ⟨rfl, hless⟩
  · have hnext : monthSeconds (year + 1) 1 ≤ monthSeconds year' 1 := by
      have hdays := yearDays_le (show year + 1 ≤ year' by omega)
      have hfirst : ∀ y, daysBeforeMonth (cycleYear y) 1 = 0 := fun _ => rfl
      rw [monthSeconds, monthSeconds, hfirst, hfirst]
      omega
    calc monthSeconds year (month + 1) ≤ monthSeconds year 13 := monthSeconds_le (by omega) (by omega)
      _ = monthSeconds (year + 1) 1 := monthSeconds_thirteen
      _ ≤ monthSeconds year' 1 := hnext
      _ ≤ monthSeconds year' month' := monthSeconds_le (by omega) hmonth'
  · exact monthSeconds_le (by omega) (by omega)

/-- An instant, in seconds since 1970, lies in a month. -/
structure InMonth (year : Int) (month : Nat) (n : Int) : Prop where
  first : 1 ≤ month
  last : month ≤ 12
  start : monthSeconds year month ≤ n
  before : n < monthEnd year month

/-- At this second a month begins. -/
def BeginsMonth (n : Int) : Prop :=
  ∃ year month, 1 ≤ month ∧ month ≤ 12 ∧ n = monthSeconds year month

namespace InMonth

theorem not_before (h : InMonth year month n) (h' : InMonth year' month' n) :
    ¬(year < year' ∨ (year = year' ∧ month < month')) := by
  intro hless
  have hend := monthEnd_le h.first h.last h'.first hless
  have hbefore := h.before
  have hstart := h'.start
  omega

theorem unique (h : InMonth year month n) (h' : InMonth year' month' n) :
    year = year' ∧ month = month' := by
  have hless := h.not_before h'
  have hgreater := h'.not_before h
  omega

/-- The last start of a month up to an instant is that of the month it lies in. -/
theorem isGreatest (h : InMonth year month n) :
    IsGreatest {k | BeginsMonth k ∧ k ≤ n} (monthSeconds year month) := by
  refine ⟨⟨⟨year, month, h.first, h.last, rfl⟩, h.start⟩, ?_⟩
  rintro k ⟨⟨year', month', hfirst, hlast, rfl⟩, hk⟩
  by_cases hless : year < year' ∨ (year = year' ∧ month < month')
  · have hend := monthEnd_le h.first h.last hfirst hless
    have hbefore := h.before
    omega
  · by_cases hsame : year = year' ∧ month = month'
    · rw [hsame.1, hsame.2]
    · have hend : monthEnd year' month' ≤ monthSeconds year month :=
        monthEnd_le hfirst hlast h.first (by omega)
      have hpositive := one_le_daysInMonth (cycleYear year') month'
      rw [monthEnd] at hend
      omega

theorem start_inMonth (h : InMonth year month n) : InMonth year month (monthSeconds year month) where
  first := h.first
  last := h.last
  start := Int.le_refl _
  before := Int.lt_of_le_of_lt h.start h.before

theorem sub_lt (h : InMonth year month n) : n - monthSeconds year month < 31 * 86400 := by
  have hbefore := h.before
  have hlength : daysInMonth (cycleYear year) month ≤ 31 := by
    unfold daysInMonth
    split
    · split <;> decide
    · split <;> decide
  rw [monthEnd] at hbefore
  omega

end InMonth

/-! ## Months of timestamps -/

namespace Timestamp

variable {t : Timestamp}

theorem wallMicros_monthStart (t : Timestamp) :
    t.monthStart.wallMicros = epochMicros + monthSeconds t.date.year t.date.month * 1000000 := by
  have hordinal : t.monthStart.date.ordinal =
      daysBeforeYear t.date.year + daysBeforeMonth t.date.year t.date.month + 1 := rfl
  rw [(startsMonth_monthStart t).wallMicros_eq, hordinal, monthSeconds, cycleYear_natCast,
    daysBeforeMonth_mod, yearDays_natCast t.date.valid.1, dayMicros, epochMicros]
  omega

theorem epochSeconds_monthStart (hutc : t.offset = some utc) :
    t.monthStart.epochSeconds = monthSeconds t.date.year t.date.month := by
  rw [epochSeconds, instant_of_utc (t := t.monthStart) hutc, wallMicros_monthStart]
  omega

/-- A timestamp in UTC lies in the month that it shows. -/
theorem inMonth (hutc : t.offset = some utc) (h : t.instant = epochMicros + n * 1000000) :
    InMonth t.date.year t.date.month n := by
  have hstart := wallMicros_monthStart t
  rw [(startsMonth_monthStart t).wallMicros_eq, dayMicros] at hstart
  have hordinal : t.date.ordinal + 1 = t.monthStart.date.ordinal + t.date.day := by
    have hfirst : t.monthStart.date.ordinal =
        daysBeforeYear t.date.year + daysBeforeMonth t.date.year t.date.month + 1 := rfl
    rw [hfirst, Date.ordinal]
    omega
  obtain ⟨_, _, hmonth, hlast, hfirst, hday⟩ := t.date.valid
  have htime := t.time.micros_lt
  have hwall : t.wallMicros = ((t.date.ordinal : Int) - 1) * dayMicros + t.time.micros := rfl
  rw [instant_of_utc hutc, hwall] at h
  rw [dayMicros] at h htime
  refine ⟨hmonth, hlast, by omega, ?_⟩
  rw [monthEnd, cycleYear_natCast, daysInMonth_mod]
  omega

/-! ## Seconds since 1970 -/

/-- The years 1 to 9999 in seconds since 1970. -/
structure IsEpochSecond (n : Int) : Prop where
  first : -62135596800 ≤ n
  last : n ≤ 253402300799

theorem exists_ofEpochSeconds? (h : IsEpochSecond n) :
    ∃ t, ofEpochSeconds? n = some t ∧ t.offset = some utc ∧ t.instant = epochMicros + n * 1000000 := by
  obtain ⟨hfirst, hlast⟩ := h
  have hbounds : 0 ≤ n * 1000000 + epochMicros ∧ n * 1000000 + epochMicros < endMicros := by
    rw [epochMicros, endMicros, lastOrdinal, dayMicros]
    omega
  obtain ⟨t, ht⟩ := exists_ofWallMicros? hbounds.1 hbounds.2 (some utc)
  obtain ⟨hwall, hutc⟩ := ofWallMicros?_eq_some ht
  exact ⟨t, ht, hutc, by rw [instant_of_utc hutc, hwall, Int.add_comm]⟩

theorem ofEpochSeconds?_eq_none (h : ¬IsEpochSecond n) : ofEpochSeconds? n = none := by
  cases ht : ofEpochSeconds? n with
  | none => rfl
  | some t =>
    obtain ⟨hwall, _⟩ := ofWallMicros?_eq_some ht
    have hbounds := t.wallMicros_bounds
    rw [hwall, epochMicros, endMicros, lastOrdinal, dayMicros] at hbounds
    exact absurd ⟨by omega, by omega⟩ h

end Timestamp

end ConsentGate.Calendar
