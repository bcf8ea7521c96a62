import ConsentGate.Calendar.IsoText
import ConsentGate.Text.Quoted

/-! Timestamps read from ISO 8601 text.

The date is a calendar date or a week date, with or without dashes; `dateLength` finds where it ends.
Any one character separates it from the time, which has two to six digits with or without colons and
an optional fraction. An offset has the form of a time after its sign, and the letter Z is UTC. A time
part is read up to the first sign or Z (`readTime?`); the character that stopped it is looked at where
a colon or a point could have followed. -/
namespace ConsentGate.Calendar
open Text
set_option autoImplicit false
-- Powers are those of the core library, also where Mathlib knows others.
attribute [local instance (high)] instPowNat

/-- Why a text is no timestamp. -/
inductive IsoFault where
  | malformed
  | offset (micros : Int)
  | year (n : Int)
  | month
  | day
  | hour
  | minute
  | second
  deriving DecidableEq, Repr

/-- The fault as a message tells it; a malformed text is quoted. -/
def IsoFault.message (s : List Char) : IsoFault → List Char
  | .malformed => "Invalid isoformat string: ".toList ++ quoted s
  | .offset micros =>
    "offset must be a timedelta strictly between -timedelta(hours=24) and ".toList ++
      "timedelta(hours=24), not ".toList ++ durationText micros ++ ['.']
  | .year n => "year ".toList ++ intDigits n ++ " is out of range".toList
  | .month => "month must be in 1..12".toList
  | .day => "day is out of range for month".toList
  | .hour => "hour must be in 0..23".toList
  | .minute => "minute must be in 0..59".toList
  | .second => "second must be in 0..59".toList

/-- The number that exactly `n` ASCII digits write at the start, and what follows them. -/
def takeNumber? : (n : Nat) → List Char → (acc : Nat) → Option (Nat × List Char)
  | 0, s, acc => some (acc, s)
  | n + 1, c :: rest, acc =>
    match asciiDigit? c with
    | some d => takeNumber? n rest (10 * acc + d)
    | none => none
  | _ + 1, [], _ => none

def isAsciiDigit (c : Char) : Bool := (asciiDigit? c).isSome

/-! ## The date -/

/-- How many characters the date takes. -/
def dateLength (s : List Char) : Option Nat :=
  let n := s.length
  if n = 7 then some 7
  else if s[4]? = some '-' then
    if s[5]? = some 'W' then
      if n < 8 then none
      else if 8 < n ∧ s[8]? = some '-' then
        if n = 9 then none
        else if 10 < n ∧ (s[10]?.any isAsciiDigit) then some 8
        else some 10
      else some 8
    else some 10
  else if s[4]? = some 'W' then
    let stop := 7 + ((s.drop 7).takeWhile isAsciiDigit).length
    if stop < 9 then some stop
    else if stop % 2 = 0 then some 7
    else some 8
  else some 8

/-- What must stand between the parts of a date: a dash in the extended form, else nothing. -/
def takeDash? (extended : Bool) : List Char → Option (List Char)
  | '-' :: rest => if extended then some rest else some ('-' :: rest)
  | rest => if extended then none else some rest

/-- Year, month and day of a week date; the day may lie beyond the last year. The weeks of year 0
come before the first day of the calendar, so they are in no month. -/
def civilOfWeek? (year week day : Nat) : Option (Nat × Nat × Nat) :=
  if week = 0 ∨ 53 < week ∨ (week = 53 ∧ hasWeek53 year = false) then none
  else if day = 0 ∨ 7 < day then none
  else if year = 0 then some (1, 0, 1)
  else some (civilOfOrdinal (firstMonday year + (week - 1) * 7 + (day - 1)).toNat)

/-- Year, month and day as written, not yet checked against the calendar. -/
def readDate? (s : List Char) : Option (Nat × Nat × Nat) := do
  let (year, rest) ← takeNumber? 4 s 0
  let extended := rest.head? = some '-'
  match if extended then rest.drop 1 else rest with
  | 'W' :: rest =>
    let (week, rest) ← takeNumber? 2 rest 0
    match rest with
    | [] => civilOfWeek? year week 1
    | rest =>
      let rest ← takeDash? extended rest
      let (day, _) ← takeNumber? 1 rest 0
      civilOfWeek? year week day
  | rest =>
    let (month, rest) ← takeNumber? 2 rest 0
    let rest ← takeDash? extended rest
    let (day, _) ← takeNumber? 2 rest 0
    return (year, month, day)

/-! ## The time -/

/-- The fields of a time part as written, and whether something was left over. -/
structure TimeFields where
  hour : Nat := 0
  minute : Nat := 0
  second : Nat := 0
  microsecond : Nat := 0
  leftover : Bool := false

/-- The end of a text, as a character. -/
def endMark : Char := Char.ofNat 0

/-- A fraction of a second: up to six digits count, more are dropped. `next` is the character after
the time part. -/
def readFraction? (next : Char) (s : List Char) (t : TimeFields) : Option TimeFields := do
  let width := min 6 s.length
  let (n, rest) ← takeNumber? width s 0
  let rest := rest.dropWhile isAsciiDigit
  return { t with
    microsecond := n * 10 ^ (6 - width)
    leftover := rest.head?.getD next != endMark }

/-- What comes after a number of the time part. -/
inductive AfterNumber where
  | finished (leftover : Bool)
  | number (rest : List Char)
  | fraction (rest : List Char)

/-- Looks at the character after a number: one further ASCII character ends the time part, whatever
it is. -/
def afterNumber? (colons : Bool) (next : Char) (s : List Char) : Option AfterNumber :=
  match s with
  | [] => some (.finished (next != endMark))
  | [c] => if c.toNat < 128 then some (.finished (c != endMark)) else none
  | c :: rest =>
    if colons ∧ c = ':' then some (.number rest)
    else if c = '.' ∨ c = ',' then some (.fraction rest)
    else if colons then none
    else some (.number s)

/-- Hour, minute, second and fraction, as many of them as are written. -/
def readTime? (next : Char) (s : List Char) : Option TimeFields := do
  let (hour, rest) ← takeNumber? 2 s 0
  let colons := rest.head?.getD next = ':'
  let t : TimeFields := { hour := hour }
  match ← afterNumber? colons next rest with
  | .finished leftover => return { t with leftover := leftover }
  | .fraction rest => readFraction? next rest t
  | .number rest =>
    let (minute, rest) ← takeNumber? 2 rest 0
    let t := { t with minute := minute }
    match ← afterNumber? colons next rest with
    | .finished leftover => return { t with leftover := leftover }
    | .fraction rest => readFraction? next rest t
    | .number rest =>
      let (second, rest) ← takeNumber? 2 rest 0
      let t := { t with second := second }
      match ← afterNumber? colons next rest with
      | .finished leftover => return { t with leftover := leftover }
      | .fraction rest => readFraction? next rest t
      | .number rest => readFraction? next rest t

/-- The offset in microseconds that the fields of a time part stand for. An offset of less than a
second is none. -/
def offsetMicros (negative : Bool) (t : TimeFields) : Int :=
  let seconds : Int := (t.hour * 60 + t.minute) * 60 + t.second
  let micros := if seconds = 0 then 0 else seconds * 1000000 + t.microsecond
  if negative then -micros else micros

/-- A time with its offset in microseconds, if it has one. -/
def readTimeAndOffset? (s : List Char) : Option (TimeFields × Option Int) :=
  let main := s.takeWhile fun c => c != '+' && c != '-' && c != 'Z'
  match s.drop main.length with
  | [] => do
    let t ← readTime? endMark main
    if t.leftover then none else return (t, none)
  | 'Z' :: rest => do
    let t ← readTime? 'Z' main
    if rest.head?.getD endMark = endMark then return (t, some 0) else none
  | sign :: rest => do
    let t ← readTime? sign main
    let o ← readTime? endMark rest
    if o.leftover then none else return (t, some (offsetMicros (sign = '-') o))

/-- The time after a date: nothing, or a separator with a time behind it. -/
def readTail? : List Char → Option (TimeFields × Option Int)
  | [] => some ({}, none)
  | _ :: rest => readTimeAndOffset? rest

/-! ## The timestamp -/

/-- Everything as written: the date, the time and the offset in microseconds. -/
def readFields? (s : List Char) : Option ((Nat × Nat × Nat) × TimeFields × Option Int) := do
  if s.length < 7 then none
  else
    let n ← dateLength s
    let date ← readDate? (s.take n)
    let (time, offset) ← readTail? (s.drop n)
    return (date, time, offset)

def checkOffset : Option Int → Except IsoFault (Option Offset)
  | none => .ok none
  | some micros =>
    if h : ValidOffset micros then .ok (some ⟨micros, h⟩) else .error (.offset micros)

def checkDate (year month day : Nat) : Except IsoFault Date :=
  if year = 0 ∨ lastYear < year then .error (.year year)
  else if month = 0 ∨ 12 < month then .error .month
  else
    match Date.ofCivil? year month day with
    | some d => .ok d
    | none => .error .day

def checkTime (t : TimeFields) : Except IsoFault TimeOfDay :=
  if h : ValidTime t.hour t.minute t.second t.microsecond then
    .ok ⟨t.hour, t.minute, t.second, t.microsecond, h⟩
  else if 24 ≤ t.hour then .error .hour
  else if 60 ≤ t.minute then .error .minute
  else .error .second

/-- The timestamp that a text writes. The offset is checked first, then the date, then the time. -/
def readTimestamp (s : List Char) : Except IsoFault Timestamp :=
  match readFields? s with
  | none => .error .malformed
  | some ((year, month, day), time, offset) => do
    let offset ← checkOffset offset
    let date ← checkDate year month day
    let time ← checkTime time
    return ⟨date, time, offset⟩

/-- Every letter Z as the offset of UTC. -/
def spellOutZ (s : List Char) : List Char :=
  s.flatMap fun c => if c = 'Z' then "+00:00".toList else [c]

end ConsentGate.Calendar
