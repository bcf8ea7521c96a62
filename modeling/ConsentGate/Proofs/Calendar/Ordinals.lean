import ConsentGate.Calendar.Timestamp

/-! Dates and wall clocks are found again from their numbers.

An ordinal belongs to one date only (`Date.ofOrdinal?_ordinal`), and a count of microseconds to one
timestamp at a given offset (`Timestamp.ofWallMicros?_wallMicros`). -/
namespace ConsentGate.Calendar
set_option autoImplicit false

/-! ## Years -/

theorem isLeap_eq_true {year : Nat} :
    isLeap year = true ↔ year % 4 = 0 ∧ (year % 100 ≠ 0 ∨ year % 400 = 0) := by
  simp [isLeap]

/-- Days of a year. -/
def daysInYear (year : Nat) : Nat := if isLeap year then 366 else 365

/-- The years before a year, in cycles of 400, 100, 4 and 1. -/
theorem exists_cycles {year : Nat} (hyear : 1 ≤ year) :
    ∃ a b c d, b < 4 ∧ c < 25 ∧ d < 4 ∧ year = 400 * a + 100 * b + 4 * c + d + 1 ∧
      daysBeforeYear year = 146097 * a + (36524 * b + (1461 * c + 365 * d)) := by
  obtain ⟨a, b, c, d, hb, hc, hd, hcycles⟩ : ∃ a b c d, b < 4 ∧ c < 25 ∧ d < 4 ∧
      year = 400 * a + 100 * b + 4 * c + d + 1 :=
    ⟨(year - 1) / 400, (year - 1) % 400 / 100, (year - 1) % 100 / 4, (year - 1) % 4,
      by omega, by omega, by omega, by omega⟩
  refine ⟨a, b, c, d, hb, hc, hd, hcycles, ?_⟩
  unfold daysBeforeYear
  dsimp only
  omega

/-- A year with a 366th day is the last of its four, and these are not the last four of a century,
unless the century is the last of its four. -/
theorem cycles_of_leapDay {year a b c d : Nat} (hb : b < 4) (hc : c < 25) (hd : d < 4)
    (hcycles : year = 400 * a + 100 * b + 4 * c + d + 1) (hday : 365 < daysInYear year) :
    d = 3 ∧ (c < 24 ∨ b = 3) := by
  unfold daysInYear at hday
  split at hday
  · rename_i hleap
    have hleap := isLeap_eq_true.mp hleap
    omega
  · omega

theorem daysInYear_le (year : Nat) : daysInYear year ≤ 366 := by
  unfold daysInYear
  split <;> omega

theorem yearOfOrdinal_eq {year day : Nat} (hyear : 1 ≤ year) (hday : day < daysInYear year) :
    yearOfOrdinal (daysBeforeYear year + day + 1) = (year, day) := by
  obtain ⟨a, b, c, d, hb, hc, hd, hcycles, hbefore⟩ := exists_cycles hyear
  have hmax : day ≤ 365 := by
    have hle := daysInYear_le year
    omega
  have hleap : day = 365 → d = 3 ∧ (c < 24 ∨ b = 3) := fun h =>
    cycles_of_leapDay hb hc hd hcycles (h ▸ hday)
  have hn : daysBeforeYear year + day + 1 - 1 =
      146097 * a + (36524 * b + (1461 * c + (365 * d + day))) := by omega
  have h400 : (146097 * a + (36524 * b + (1461 * c + (365 * d + day)))) / 146097 = a := by omega
  have hr400 : (146097 * a + (36524 * b + (1461 * c + (365 * d + day)))) % 146097 =
      36524 * b + (1461 * c + (365 * d + day)) := by omega
  unfold yearOfOrdinal
  rw [hn]
  dsimp only
  rw [h400, hr400]
  -- The last day of 400 years makes a fifth century, in which nothing is left of the 4 and the 1.
  by_cases hlast : c = 24 ∧ d = 3 ∧ day = 365
  · have hb3 : b = 3 := by omega
    obtain ⟨hc24, hd3, hday365⟩ := hlast
    subst hb3 hc24 hd3 hday365
    rw [hcycles]
    simp
    omega
  have h100 : (36524 * b + (1461 * c + (365 * d + day))) / 36524 = b := by omega
  have hr100 : (36524 * b + (1461 * c + (365 * d + day))) % 36524 =
      1461 * c + (365 * d + day) := by omega
  have h4 : (1461 * c + (365 * d + day)) / 1461 = c := by omega
  have hr4 : (1461 * c + (365 * d + day)) % 1461 = 365 * d + day := by omega
  rw [h100, hr100, h4, hr4]
  -- The last day of four years makes a fifth year.
  by_cases hend : day = 365
  · have hd3 : d = 3 := (hleap hend).1
    have h1 : (365 * d + day) / 365 = 4 := by omega
    rw [h1, if_pos (Or.inl rfl)]
    refine Prod.ext ?_ ?_
    · show a * 400 + b * 100 + c * 4 + 4 = year
      omega
    · exact hend.symm
  · have h1 : (365 * d + day) / 365 = d := by omega
    have hr1 : (365 * d + day) % 365 = day := by omega
    have hinside : ¬(d = 4 ∨ b = 4) := by omega
    rw [h1, hr1, if_neg hinside]
    refine Prod.ext ?_ rfl
    show a * 400 + b * 100 + c * 4 + d + 1 = year
    omega

/-! ## Months -/

theorem daysBeforeMonth_succ (year : Nat) {month : Nat} (h : 1 ≤ month) :
    daysBeforeMonth year (month + 1) = daysBeforeMonth year month + daysInMonth year month := by
  obtain ⟨k, rfl⟩ := Nat.exists_eq_succ_of_ne_zero (Nat.ne_of_gt h)
  rfl

theorem daysBeforeMonth_thirteen (year : Nat) : daysBeforeMonth year 13 = daysInYear year := by
  by_cases hleap : isLeap year = true <;>
    simp [daysBeforeMonth, daysInMonth, daysInYear, hleap]

theorem daysBeforeMonth_le (year : Nat) {m n : Nat} (hm : 1 ≤ m) (h : m ≤ n) :
    daysBeforeMonth year m ≤ daysBeforeMonth year n := by
  induction h with
  | refl => exact Nat.le_refl _
  | @step n hmn ih =>
    have hn : 1 ≤ n := Nat.le_trans hm hmn
    rw [daysBeforeMonth_succ year hn]
    omega

/-- The search that starts at a month not after the right one ends at the right one. -/
theorem monthOfDay_eq {year month day : Nat} (hday : day < daysInMonth year month) (fuel m : Nat)
    (hm : 1 ≤ m) (hmonth : m ≤ month) (hfuel : month ≤ m + fuel) :
    monthOfDay year fuel m (daysBeforeMonth year month - daysBeforeMonth year m + day) =
      (month, day + 1) := by
  induction fuel generalizing m with
  | zero =>
    have hsame : m = month := by omega
    rw [hsame, Nat.sub_self, Nat.zero_add]
    rfl
  | succ fuel ih =>
    rw [monthOfDay]
    by_cases hsame : m = month
    · rw [hsame, Nat.sub_self, Nat.zero_add, if_pos hday]
    · have hnext := daysBeforeMonth_le year (show 1 ≤ m + 1 by omega) (show m + 1 ≤ month by omega)
      have hsucc := daysBeforeMonth_succ year hm
      have hlater : ¬daysBeforeMonth year month - daysBeforeMonth year m + day <
          daysInMonth year m := by omega
      have hrest : daysBeforeMonth year month - daysBeforeMonth year m + day - daysInMonth year m =
          daysBeforeMonth year month - daysBeforeMonth year (m + 1) + day := by omega
      rw [if_neg hlater, hrest]
      exact ih (m + 1) (by omega) (by omega) (by omega)

/-! ## Dates -/

theorem civilOfOrdinal_eq {year month day : Nat} (hyear : 1 ≤ year) (hmonth : 1 ≤ month)
    (hlast : month ≤ 12) (hday : day < daysInMonth year month) :
    civilOfOrdinal (daysBeforeYear year + (daysBeforeMonth year month + day) + 1) =
      (year, month, day + 1) := by
  have hnext := daysBeforeMonth_le year (show 1 ≤ month + 1 by omega) (show month + 1 ≤ 13 by omega)
  rw [daysBeforeMonth_succ year hmonth, daysBeforeMonth_thirteen] at hnext
  have hfirst : daysBeforeMonth year 1 = 0 := rfl
  have hsearch := monthOfDay_eq hday 11 1 (Nat.le_refl 1) hmonth (by omega)
  rw [hfirst, Nat.sub_zero] at hsearch
  rw [civilOfOrdinal, yearOfOrdinal_eq hyear (by omega)]
  dsimp only
  rw [hsearch]

theorem civilOfOrdinal_ordinal (d : Date) : civilOfOrdinal d.ordinal = (d.year, d.month, d.day) := by
  obtain ⟨hyear, _, hmonth, hlast, hday, hdays⟩ := d.valid
  have hordinal : d.ordinal =
      daysBeforeYear d.year + (daysBeforeMonth d.year d.month + (d.day - 1)) + 1 := by
    rw [Date.ordinal]
    omega
  rw [hordinal, civilOfOrdinal_eq hyear hmonth hlast (by omega), Nat.sub_add_cancel hday]

theorem Date.ofOrdinal?_ordinal (d : Date) : Date.ofOrdinal? d.ordinal = some d := by
  have hpositive : ¬(d.ordinal : Int) < 1 := by
    have hday := d.valid.2.2.2.2.1
    rw [Date.ordinal]
    omega
  rw [Date.ofOrdinal?, if_neg hpositive, Int.toNat_natCast, civilOfOrdinal_ordinal]
  exact dif_pos d.valid

/-! ## Times -/

theorem TimeOfDay.micros_lt (t : TimeOfDay) : t.micros < dayMicros := by
  obtain ⟨hhour, hminute, hsecond, hmicro⟩ := t.valid
  rw [TimeOfDay.micros, dayMicros]
  omega

theorem TimeOfDay.ofMicros_micros (t : TimeOfDay) : TimeOfDay.ofMicros t.micros = t := by
  obtain ⟨hour, minute, second, microsecond, hhour, hminute, hsecond, hmicro⟩ := t
  simp only [TimeOfDay.ofMicros, TimeOfDay.micros, TimeOfDay.mk.injEq]
  refine ⟨?_, ?_, ?_, ?_⟩ <;> omega

theorem Timestamp.ofWallMicros?_wallMicros (t : Timestamp) :
    Timestamp.ofWallMicros? t.wallMicros t.offset = some t := by
  have htime := t.time.micros_lt
  have hday : t.wallMicros / dayMicros + 1 = t.date.ordinal := by
    rw [Timestamp.wallMicros, dayMicros] at *
    omega
  have hrest : (t.wallMicros % dayMicros).toNat = t.time.micros := by
    rw [Timestamp.wallMicros, dayMicros] at *
    omega
  rw [Timestamp.ofWallMicros?, hday, hrest, Date.ofOrdinal?_ordinal, TimeOfDay.ofMicros_micros]
  rfl

/-! ## A day and an offset for samples -/

theorem validDate_march : ValidDate 2024 3 14 := by decide

theorem validOffset_fiveHours : ValidOffset 18000000000 := by decide

end ConsentGate.Calendar
