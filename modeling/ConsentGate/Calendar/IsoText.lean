import ConsentGate.Calendar.Timestamp
import ConsentGate.Text.Digit

/-! Dates and timestamps written in ISO 8601.

A date is `YYYY-MM-DD`. A timestamp adds a separator and `HH:MM:SS`, six more digits after a point if
it is not at a whole second, and its offset as `+HH:MM` with seconds and microseconds only where
needed. -/
namespace ConsentGate.Calendar
open Text
set_option autoImplicit false

def Date.isoText (d : Date) : List Char :=
  padDigits 4 d.year ++ '-' :: (padDigits 2 d.month ++ '-' :: padDigits 2 d.day)

/-- Year and month of a date. -/
def Date.monthText (d : Date) : List Char := padDigits 4 d.year ++ '-' :: padDigits 2 d.month

/-- Six digits after a point, unless there is nothing to write. -/
def microsText (n : Nat) : List Char := if n = 0 then [] else '.' :: padDigits 6 n

def TimeOfDay.isoText (t : TimeOfDay) : List Char :=
  padDigits 2 t.hour ++ ':' :: (padDigits 2 t.minute ++ ':' :: padDigits 2 t.second) ++
    microsText t.microsecond

def Offset.isoText (o : Offset) : List Char :=
  let t := TimeOfDay.ofMicros o.micros.natAbs
  (if o.micros < 0 then '-' else '+') ::
    (padDigits 2 t.hour ++ ':' :: padDigits 2 t.minute ++
      (if t.second = 0 ∧ t.microsecond = 0 then []
        else ':' :: padDigits 2 t.second ++ microsText t.microsecond))

/-- The text of a timestamp with the given character between date and time. -/
def Timestamp.textWith (separator : Char) (t : Timestamp) : List Char :=
  t.date.isoText ++ separator :: t.time.isoText ++
    (match t.offset with
      | some o => o.isoText
      | none => [])

def Timestamp.isoText (t : Timestamp) : List Char := t.textWith 'T'

/-! ## Durations -/

/-- A number of microseconds as days, seconds and microseconds, the last two not negative. -/
def durationParts (micros : Int) : List (String × Int) :=
  [("days", micros / 86400000000), ("seconds", micros % 86400000000 / 1000000),
    ("microseconds", micros % 1000000)]

/-- A duration by its parts that are not zero. -/
def durationText (micros : Int) : List Char :=
  let parts := (durationParts micros).filter fun p => p.2 ≠ 0
  let body :=
    if parts.isEmpty then ['0']
    else [',', ' '].intercalate (parts.map fun p => p.1.toList ++ '=' :: intDigits p.2)
  "datetime.timedelta(".toList ++ body ++ [')']

end ConsentGate.Calendar
