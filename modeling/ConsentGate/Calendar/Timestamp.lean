import ConsentGate.Calendar.Date

/-! Points in time to the microsecond, with or without an offset from UTC.

A timestamp without offset is naive; where an instant is needed it counts as UTC. `instant` counts
microseconds from the start of year 1 in UTC. -/
namespace ConsentGate.Calendar
set_option autoImplicit false

abbrev ValidTime (hour minute second microsecond : Nat) : Prop :=
  hour < 24 ∧ minute < 60 ∧ second < 60 ∧ microsecond < 1000000

structure TimeOfDay where
  hour : Nat
  minute : Nat
  second : Nat
  microsecond : Nat
  valid : ValidTime hour minute second microsecond := by decide
  deriving DecidableEq, Repr

def midnight : TimeOfDay := ⟨0, 0, 0, 0, by decide⟩

/-- One day in microseconds. -/
def dayMicros : Nat := 86400000000

abbrev ValidOffset (micros : Int) : Prop :=
  -86400000000 < micros ∧ micros < 86400000000

/-- A distance from UTC in microseconds, positive to the east and less than a day. -/
structure Offset where
  micros : Int
  valid : ValidOffset micros := by decide
  deriving DecidableEq, Repr

def utc : Offset := ⟨0, by decide⟩

structure Timestamp where
  date : Date
  time : TimeOfDay
  offset : Option Offset
  deriving DecidableEq, Repr

/-- Microseconds since midnight. -/
def TimeOfDay.micros (t : TimeOfDay) : Nat :=
  ((t.hour * 60 + t.minute) * 60 + t.second) * 1000000 + t.microsecond

/-- The time of day at a number of microseconds after midnight, whole days being dropped. -/
def TimeOfDay.ofMicros (n : Nat) : TimeOfDay where
  hour := n / 3600000000 % 24
  minute := n / 60000000 % 60
  second := n / 1000000 % 60
  microsecond := n % 1000000
  valid := by
    refine ⟨?_, ?_, ?_, ?_⟩ <;> exact Nat.mod_lt _ (by decide)

namespace Timestamp

/-- Midnight at the start of a day, without offset. -/
def ofDate (d : Date) : Timestamp := ⟨d, midnight, none⟩

/-- Microseconds from the start of year 1, by the wall clock. -/
def wallMicros (t : Timestamp) : Int :=
  ((t.date.ordinal : Int) - 1) * dayMicros + t.time.micros

/-- The timestamp that shows a wall clock, unless its year is out of range. -/
def ofWallMicros? (n : Int) (offset : Option Offset) : Option Timestamp :=
  (Date.ofOrdinal? (n / dayMicros + 1)).map fun d =>
    ⟨d, TimeOfDay.ofMicros (n % dayMicros).toNat, offset⟩

/-- Microseconds from the start of year 1 in UTC; a naive timestamp is read as UTC. -/
def instant (t : Timestamp) : Int :=
  t.wallMicros - (match t.offset with | some o => o.micros | none => 0)

/-- The same instant in UTC, unless its year is out of range there. A naive timestamp is read as
UTC. -/
def toUtc? (t : Timestamp) : Option Timestamp :=
  match t.offset with
  | none => some { t with offset := some utc }
  | some o =>
    if o.micros = 0 then some { t with offset := some utc }
    else ofWallMicros? t.instant (some utc)

/-- The first instant of the month, at the same offset. -/
def monthStart (t : Timestamp) : Timestamp := ⟨t.date.monthStart, midnight, t.offset⟩

/-! ## Seconds since 1970 -/

/-- Microseconds from the start of year 1 to the start of 1970. -/
def epochMicros : Int := 719162 * 86400000000

/-- The UTC timestamp at a number of microseconds since 1970. -/
def ofEpochMicros? (n : Int) : Option Timestamp := ofWallMicros? (n + epochMicros) (some utc)

def ofEpochSeconds? (n : Int) : Option Timestamp := ofEpochMicros? (n * 1000000)

/-- Whole seconds since 1970, cut to the second below. -/
def epochSeconds (t : Timestamp) : Int := (t.instant - epochMicros) / 1000000

end Timestamp

end ConsentGate.Calendar
