import ConsentGate.Calendar.IsoReader
import ConsentGate.Failure
import ConsentGate.Text.Blank
import ConsentGate.Value.Basic

/-! Values read as points in time.

Timestamps, dates, ISO 8601 texts and numbers of seconds since 1970 can be read; booleans are no
numbers here. -/
namespace ConsentGate.Value
open Calendar Number Text
set_option autoImplicit false

/-- The UTC timestamp at a number of seconds since 1970, to the nearest microsecond. The fraction is
scaled as a floating-point number and then rounded, a half to the even microsecond. -/
def ofFloatSeconds? (x : Binary64) : Option Timestamp := do
  let whole ← x.truncate?
  let fraction ← x.fraction?
  let micros ← (fraction.scale 1000000).nearestInt?
  Timestamp.ofEpochMicros? (whole * 1000000 + micros)

/-- Why a value under a key is not of the type expected. -/
def decodeFailure (v : Value) (key expected : String) : Failure :=
  .propertyDecode key expected v.typeName

/-- The timestamp that a value stands for. -/
def toTimestamp (v : Value) (key : String) : Except Failure Timestamp :=
  let failure := v.decodeFailure key "datetime"
  match v with
  | .datetime t => .ok t
  | .date d => .ok (Timestamp.ofDate d)
  | .str s => (readTimestamp (spellOutZ (trim s.toList))).mapError fun _ => failure
  | .int n => (Timestamp.ofEpochSeconds? n).elim (.error failure) .ok
  | .float x => (ofFloatSeconds? x).elim (.error failure) .ok
  | _ => .error failure

/-- Whether a value holds a date; numbers do only where they count seconds. -/
def isDate (v : Value) (epochSeconds : Bool) : Bool :=
  match v with
  | .datetime _ | .date _ => true
  | .str _ => (v.toTimestamp "").toBool
  | .int _ | .float _ => epochSeconds
  | _ => false

/-- A date-like value without its day and time of day, in the representation it has: a timestamp or a
date at the start of its month, a text of year and month, or the seconds of the month's start in
UTC. -/
def generalizeDate (v : Value) (key : String) : Except Failure Value :=
  match v with
  | .null => .ok .null
  | .datetime t => .ok (.datetime t.monthStart)
  | .date d => .ok (.date d.monthStart)
  | .str _ => do
    let t ← v.toTimestamp key
    return .str (String.ofList t.date.monthText)
  | .int _ | .float _ => do
    let t ← v.toTimestamp key
    return .int t.monthStart.epochSeconds
  | _ => .error (v.decodeFailure key "date")

end ConsentGate.Value
