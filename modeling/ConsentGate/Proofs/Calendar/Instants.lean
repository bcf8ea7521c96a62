import ConsentGate.Proofs.Calendar.Ordinals

/-! Every instant of the years 1 to 9999 has a timestamp, and no other instant has.

An ordinal that is not too great belongs to a date (`Date.exists_ofOrdinal?`), and what is found for a
number has that number. So the UTC form of a timestamp is the one timestamp in UTC at the same instant
(`Timestamp.toUtc?_eq_some_iff`), and it is missing exactly where the instant lies outside those years
(`Timestamp.toUtc?_eq_none_iff`). -/
namespace ConsentGate.Calendar
set_option autoImplicit false

/-! ## Years and months -/

theorem daysBeforeYear_succ {year : Nat} (h : 1 ≤ year) :
    daysBeforeYear (year + 1) = daysBeforeYear year + daysInYear year := by
  obtain ⟨x, rfl⟩ := Nat.exists_eq_succ_of_ne_zero (Nat.ne_of_gt h)
  -- Each cycle ends where the year is a multiple of its length.
  have h4 : (x + 1) / 4 = x / 4 + if (x + 1) % 4 = 0 then 1 else 0 := by split <;> omega
  have h100 : (x + 1) / 100 = x / 100 + if (x + 1) % 100 = 0 then 1 else 0 := by split <;> omega
  have h400 : (x + 1) / 400 = x / 400 + if (x + 1) % 400 = 0 then 1 else 0 := by split <;> omega
  have hbefore : daysBeforeYear (x + 1 + 1) =
      (x + 1) * 365 + (x + 1) / 4 - (x + 1) / 100 + (x + 1) / 400 := rfl
  have hyear : daysBeforeYear (x + 1) = x * 365 + x / 4 - x / 100 + x / 400 := rfl
  rw [Nat.succ_eq_add_one, hbefore, hyear, h4, h100, h400, daysInYear]
  clear hbefore hyear h4 h100 h400
  by_cases hleap : isLeap (x + 1) = true
  · rw [if_pos hleap]
    obtain ⟨hfour, hcentury | hcycle⟩ := isLeap_eq_true.mp hleap
    · rw [if_pos hfour, if_neg hcentury, if_neg (by omega)]
      omega
    · rw [if_pos hfour, if_pos (by omega), if_pos hcycle]
      omega
  · rw [if_neg hleap]
    have hcycles := mt isLeap_eq_true.mpr hleap
    by_cases hfour : (x + 1) % 4 = 0
    · rw [if_pos hfour, if_pos (by omega), if_neg (by omega)]
      omega
    · rw [if_neg hfour, if_neg (by omega), if_neg (by omega)]
      omega

/-- Every count of days falls into a year. -/
theorem exists_yearDay (n : Nat) :
    ∃ year day, 1 ≤ year ∧ day < daysInYear year ∧ n = daysBeforeYear year + day := by
  induction n with
  | zero => exact ⟨1, 0, by decide, by decide, rfl⟩
  | succ n ih =>
    obtain ⟨year, day, hyear, hday, hn⟩ := ih
    by_cases hlast : day + 1 < daysInYear year
    · exact ⟨year, day + 1, hyear, hlast, by omega⟩
    · have hsucc := daysBeforeYear_succ hyear
      have hpositive : 0 < daysInYear (year + 1) := by
        unfold daysInYear
        split <;> decide
      exact ⟨year + 1, 0, by omega, hpositive, by omega⟩

theorem exists_monthDay_of_lt {year day : Nat} (last : Nat)
    (h : day < daysBeforeMonth year (last + 1)) :
    ∃ month k, 1 ≤ month ∧ month ≤ last ∧ k < daysInMonth year month ∧
      day = daysBeforeMonth year month + k := by
  induction last with
  | zero => exact absurd h (Nat.not_lt_zero day)
  | succ last ih =>
    by_cases hbefore : day < daysBeforeMonth year (last + 1)
    · obtain ⟨month, k, hmonth, hlast, hk, hday⟩ := ih hbefore
      exact ⟨month, k, hmonth, by omega, hk, hday⟩
    · rw [daysBeforeMonth_succ year (by omega)] at h
      exact ⟨last + 1, day - daysBeforeMonth year (last + 1), by omega, Nat.le_refl _, by omega,
        by omega⟩

/-- Every day of a year falls into a month. -/
theorem exists_monthDay {year day : Nat} (h : day < daysInYear year) :
    ∃ month k, 1 ≤ month ∧ month ≤ 12 ∧ k < daysInMonth year month ∧
      day = daysBeforeMonth year month + k :=
  exists_monthDay_of_lt 12 (by rwa [daysBeforeMonth_thirteen])

/-! ## Dates -/

/-- The ordinal of the last day of year 9999. -/
def lastOrdinal : Nat := 3652059

/-- Year, month and day of an ordinal, and that these have it for their number. -/
theorem exists_civilOfOrdinal {n : Nat} (h : 1 ≤ n) :
    ∃ year month day, civilOfOrdinal n = (year, month, day) ∧
      n = daysBeforeYear year + daysBeforeMonth year month + day ∧
      (ValidDate year month day ↔ n ≤ lastOrdinal) := by
  obtain ⟨year, yearDay, hyear, hyearDay, hn⟩ := exists_yearDay (n - 1)
  obtain ⟨month, k, hmonth, hlast, hk, hmonthDay⟩ := exists_monthDay hyearDay
  have hordinal : n = daysBeforeYear year + (daysBeforeMonth year month + k) + 1 := by omega
  refine ⟨year, month, k + 1, ?_, by omega, ?_⟩
  · rw [hordinal]
    exact civilOfOrdinal_eq hyear hmonth hlast hk
  · have hinside : ValidDate year month (k + 1) ↔ year ≤ 9999 := by
      constructor
      · intro hvalid
        exact hvalid.2.1
      · intro hle
        exact ⟨hyear, hle, hmonth, hlast, by omega, by omega⟩
    have hnext := daysBeforeYear_succ hyear
    have hyears : year ≤ 9999 ↔ daysBeforeYear (year + 1) ≤ lastOrdinal := by
      unfold daysBeforeYear lastOrdinal
      dsimp only
      omega
    have hbefore : 9999 < year → lastOrdinal ≤ daysBeforeYear year := by
      unfold daysBeforeYear lastOrdinal
      dsimp only
      omega
    rw [hinside]
    omega

namespace Date

theorem ordinal_eq_of_ofOrdinal? {n : Int} {d : Date} (h : ofOrdinal? n = some d) :
    (d.ordinal : Int) = n := by
  unfold ofOrdinal? at h
  split at h
  · cases h
  · obtain ⟨year, month, day, hcivil, hn, _⟩ := exists_civilOfOrdinal (n := n.toNat) (by omega)
    rw [hcivil] at h
    dsimp only at h
    unfold ofCivil? at h
    split at h
    · cases h
      rw [ordinal]
      dsimp only
      omega
    · cases h

theorem exists_ofOrdinal? {n : Int} (hfirst : 1 ≤ n) (hlast : n ≤ lastOrdinal) :
    ∃ d, ofOrdinal? n = some d := by
  obtain ⟨year, month, day, hcivil, _, hvalid⟩ := exists_civilOfOrdinal (n := n.toNat) (by omega)
  have hvalid := hvalid.mpr (by omega)
  unfold ofOrdinal?
  rw [if_neg (by omega), hcivil]
  exact ⟨_, dif_pos hvalid⟩

theorem one_le_ordinal (d : Date) : 1 ≤ d.ordinal := by
  have hday := d.valid.2.2.2.2.1
  rw [ordinal]
  omega

theorem ordinal_le (d : Date) : d.ordinal ≤ lastOrdinal := by
  obtain ⟨year, month, day, hcivil, _, hvalid⟩ := exists_civilOfOrdinal d.one_le_ordinal
  rw [civilOfOrdinal_ordinal] at hcivil
  cases hcivil
  exact hvalid.mp d.valid

theorem eq_of_ordinal {d d' : Date} (h : d.ordinal = d'.ordinal) : d = d' := by
  have hd := ofOrdinal?_ordinal d
  rw [h, ofOrdinal?_ordinal] at hd
  exact (Option.some.inj hd).symm

end Date

/-! ## Wall clocks -/

theorem TimeOfDay.micros_ofMicros {n : Nat} (h : n < dayMicros) :
    (TimeOfDay.ofMicros n).micros = n := by
  rw [dayMicros] at h
  simp only [TimeOfDay.micros, TimeOfDay.ofMicros]
  omega

namespace Timestamp

/-- Microseconds from the start of year 1 to the end of year 9999. -/
def endMicros : Int := lastOrdinal * dayMicros

theorem wallMicros_bounds (t : Timestamp) : 0 ≤ t.wallMicros ∧ t.wallMicros < endMicros := by
  have htime := t.time.micros_lt
  have hfirst := t.date.one_le_ordinal
  have hlast := t.date.ordinal_le
  rw [wallMicros, endMicros, dayMicros, lastOrdinal] at *
  omega

theorem ofWallMicros?_eq_some {n : Int} {offset : Option Offset} {t : Timestamp}
    (h : ofWallMicros? n offset = some t) : t.wallMicros = n ∧ t.offset = offset := by
  obtain ⟨d, hd, rfl⟩ := Option.map_eq_some_iff.mp h
  have hordinal := Date.ordinal_eq_of_ofOrdinal? hd
  have hday : (n % dayMicros).toNat < dayMicros := by
    rw [dayMicros]
    omega
  have htime := TimeOfDay.micros_ofMicros hday
  refine ⟨?_, rfl⟩
  rw [wallMicros]
  dsimp only
  rw [htime, hordinal, dayMicros]
  omega

theorem exists_ofWallMicros? {n : Int} (hfirst : 0 ≤ n) (hlast : n < endMicros)
    (offset : Option Offset) : ∃ t, ofWallMicros? n offset = some t := by
  have hday : 1 ≤ n / dayMicros + 1 ∧ n / dayMicros + 1 ≤ lastOrdinal := by
    rw [endMicros, dayMicros, lastOrdinal] at *
    omega
  obtain ⟨d, hd⟩ := Date.exists_ofOrdinal? hday.1 hday.2
  exact ⟨_, Option.map_eq_some_iff.mpr ⟨d, hd, rfl⟩⟩

/-- A wall clock and an offset belong to one timestamp only. -/
theorem eq_of_wallMicros {t u : Timestamp} (hwall : t.wallMicros = u.wallMicros)
    (hoffset : t.offset = u.offset) : t = u := by
  have ht := ofWallMicros?_wallMicros t
  rw [hwall, hoffset, ofWallMicros?_wallMicros] at ht
  exact (Option.some.inj ht).symm

/-! ## UTC -/

theorem instant_of_utc {t : Timestamp} (h : t.offset = some utc) : t.instant = t.wallMicros := by
  rw [instant, h]
  exact Int.sub_zero _

/-- The UTC form of a timestamp is the one timestamp in UTC at the same instant. -/
theorem toUtc?_eq_some_iff {t u : Timestamp} :
    t.toUtc? = some u ↔ u.offset = some utc ∧ u.instant = t.instant := by
  -- Without a distance from UTC only the offset is written anew; otherwise the wall clock moves.
  have hsame : t.instant = t.wallMicros →
      (some { t with offset := some utc } = some u ↔
        u.offset = some utc ∧ u.instant = t.instant) := by
    intro hwall
    constructor
    · intro h
      cases h
      exact ⟨rfl, (instant_of_utc rfl).trans hwall.symm⟩
    · rintro ⟨hoffset, hinstant⟩
      rw [instant_of_utc hoffset, hwall] at hinstant
      exact congrArg some (eq_of_wallMicros hinstant.symm hoffset.symm)
  unfold toUtc?
  split
  · rename_i hoffset
    refine hsame ?_
    rw [instant, hoffset]
    exact Int.sub_zero _
  · rename_i o hoffset
    split
    · rename_i hzero
      refine hsame ?_
      rw [instant, hoffset]
      dsimp only
      omega
    · constructor
      · intro h
        obtain ⟨hwall, hutc⟩ := ofWallMicros?_eq_some h
        exact ⟨hutc, (instant_of_utc hutc).trans hwall⟩
      · rintro ⟨hutc, hinstant⟩
        rw [← hinstant, instant_of_utc hutc, ← hutc]
        exact ofWallMicros?_wallMicros u

/-- An instant before year 1 or after year 9999 has no UTC form. -/
theorem toUtc?_eq_none_iff {t : Timestamp} :
    t.toUtc? = none ↔ t.instant < 0 ∨ endMicros ≤ t.instant := by
  constructor
  · intro hnone
    by_cases houtside : t.instant < 0 ∨ endMicros ≤ t.instant
    · exact houtside
    obtain ⟨u, hu⟩ := exists_ofWallMicros? (n := t.instant) (by omega) (by omega) (some utc)
    obtain ⟨hwall, hutc⟩ := ofWallMicros?_eq_some hu
    have hsome := toUtc?_eq_some_iff.mpr ⟨hutc, (instant_of_utc hutc).trans hwall⟩
    rw [hnone] at hsome
    cases hsome
  · intro houtside
    cases hu : t.toUtc? with
    | none => rfl
    | some u =>
      obtain ⟨hutc, hinstant⟩ := toUtc?_eq_some_iff.mp hu
      have hbounds := u.wallMicros_bounds
      rw [instant_of_utc hutc] at hinstant
      omega

/-! ## The first instant of a month -/

/-- How far ahead of UTC the clock of a timestamp is; without offset it shows UTC. -/
def ahead (t : Timestamp) : Int :=
  match t.offset with
  | some o => o.micros
  | none => 0

theorem instant_eq (t : Timestamp) : t.instant = t.wallMicros - t.ahead := rfl

theorem ahead_bounds (t : Timestamp) : -(dayMicros : Int) < t.ahead ∧ t.ahead < dayMicros := by
  unfold ahead
  split
  · rename_i o _
    exact o.valid
  · decide

/-- A timestamp that is the first instant of its month, by its own clock. -/
def StartsMonth (t : Timestamp) : Prop := t.monthStart = t

theorem startsMonth_monthStart (t : Timestamp) : t.monthStart.StartsMonth := rfl

variable {t u : Timestamp}

theorem StartsMonth.wallMicros_eq (h : t.StartsMonth) :
    t.wallMicros = ((t.date.ordinal : Int) - 1) * dayMicros := by
  have htime : t.time = midnight := (congrArg Timestamp.time h).symm
  rw [wallMicros, htime]
  exact Int.add_zero _

theorem StartsMonth.day_eq (h : t.StartsMonth) : t.date.day = 1 :=
  (congrArg (fun t => t.date.day) h).symm

theorem StartsMonth.atOffset (h : t.StartsMonth) (offset : Option Offset) :
    StartsMonth ⟨t.date, midnight, offset⟩ := by
  have hdate : t.date.monthStart = t.date := congrArg Timestamp.date h
  unfold StartsMonth monthStart
  rw [hdate]

/-- In UTC a month begins at the same instant only for a clock that shows UTC. -/
theorem StartsMonth.utc_iff (h : t.StartsMonth) (hutc : u.offset = some utc)
    (hinstant : u.instant = t.instant) :
    u = ⟨t.date, midnight, some utc⟩ ↔ t.ahead = 0 := by
  have hwall : (⟨t.date, midnight, some utc⟩ : Timestamp).wallMicros = t.wallMicros :=
    (h.atOffset (some utc)).wallMicros_eq.trans h.wallMicros_eq.symm
  rw [instant_of_utc hutc, instant_eq] at hinstant
  constructor
  · intro hu
    rw [hu] at hinstant
    omega
  · intro hahead
    exact eq_of_wallMicros (by omega) hutc

/-- In UTC this instant lies in the same month only for a clock that is not ahead of UTC. -/
theorem StartsMonth.month_iff (h : t.StartsMonth) (hutc : u.offset = some utc)
    (hinstant : u.instant = t.instant) :
    (u.date.year = t.date.year ∧ u.date.month = t.date.month) ↔ t.ahead ≤ 0 := by
  have hwall := h.wallMicros_eq
  have hday := h.day_eq
  have hbounds := t.ahead_bounds
  have htime := u.time.micros_lt
  have hordinal : u.wallMicros = ((u.date.ordinal : Int) - 1) * dayMicros + u.time.micros := rfl
  rw [instant_of_utc hutc, instant_eq] at hinstant
  rw [dayMicros] at *
  constructor
  · rintro ⟨hyear, hmonth⟩
    have hfirst := u.date.valid.2.2.2.2.1
    have hafter : t.date.ordinal ≤ u.date.ordinal := by
      rw [Date.ordinal, Date.ordinal, hyear, hmonth]
      omega
    omega
  · intro hahead
    have hsame : u.date.ordinal = t.date.ordinal := by omega
    rw [Date.eq_of_ordinal hsame]
    exact ⟨rfl, rfl⟩

end Timestamp

end ConsentGate.Calendar
