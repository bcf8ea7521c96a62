import ConsentGate.Calendar.Timestamp

/-! Timestamps in a time zone.

A zone tells the offset that a wall clock has there, which may be another in summer than in winter. Where
the clock is set back a wall clock comes twice, and the zone tells the two apart. The first instant of a
month is in the same zone, so its offset is the one that the zone has then (`Zoned.offset_monthStart_of`);
a timestamp that knows its offset only is one in a zone that never changes (`Timestamp.inZone`). -/
namespace ConsentGate.Calendar
set_option autoImplicit false

structure Zone where
  /-- The offset of a wall clock, if any, when it comes for the first time and when it comes again. -/
  offset : Date → TimeOfDay → (again : Bool) → Option Offset

/-- The zone that has the same offset, or none, all the time. -/
def Zone.fixed (o : Option Offset) : Zone := ⟨fun _ _ _ => o⟩

/-- The zone has one offset throughout a month. -/
def Zone.SteadyIn (z : Zone) (year month : Nat) : Prop :=
  ∀ (d d' : Date) (time time' : TimeOfDay) (again again' : Bool), d.year = year → d.month = month →
    d'.year = year → d'.month = month → z.offset d time again = z.offset d' time' again'

structure Zoned where
  date : Date
  time : TimeOfDay
  zone : Zone
  again : Bool

namespace Zoned

def offset (t : Zoned) : Option Offset := t.zone.offset t.date t.time t.again

/-- What the wall clock shows, with the offset that it has. -/
def toTimestamp (t : Zoned) : Timestamp := ⟨t.date, t.time, t.offset⟩

/-- The first instant of the month, in the same zone. -/
def monthStart (t : Zoned) : Zoned := { t with date := t.date.monthStart, time := midnight }

theorem monthStart_eq_iff {t t' : Zoned} : t.monthStart = t'.monthStart ↔
    (t.date.year = t'.date.year ∧ t.date.month = t'.date.month) ∧ t.zone = t'.zone ∧
      t.again = t'.again := by
  simp [monthStart, Date.monthStart]

/-- Where the zone does not change within the month, its start has the offset of every instant of it. -/
theorem offset_monthStart_of {t : Zoned} (h : t.zone.SteadyIn t.date.year t.date.month) :
    t.monthStart.offset = t.offset :=
  h t.date.monthStart t.date midnight t.time t.again t.again rfl rfl rfl rfl

end Zoned

/-- The timestamp in the zone that always has its offset. -/
def Timestamp.inZone (t : Timestamp) : Zoned := ⟨t.date, t.time, .fixed t.offset, false⟩

theorem Timestamp.monthStart_inZone (t : Timestamp) : t.inZone.monthStart = t.monthStart.inZone := rfl

end ConsentGate.Calendar
