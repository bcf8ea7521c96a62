import ConsentGate.Calendar.IsoText
import ConsentGate.Digest.Base64
import ConsentGate.Digest.Hmac
import ConsentGate.Ledger.CellType
import ConsentGate.Number.Shortest
import ConsentGate.Text.Blank
import ConsentGate.Text.LowerCase
import ConsentGate.Value.Text

/-! Cells of the ledger, and what they become in columns of texts and of flags.

A value is put into a cell of its own type and cast to the type of its column. In a column of texts
each value stands as its cell shows it, a list between brackets with its items as they are. In a
column of flags numbers count as true unless they are zero, and a few words stand for a flag. -/
namespace ConsentGate.Ledger
open Calendar Number Text
set_option autoImplicit false
-- Powers are those of the core library, also where Mathlib knows others.
attribute [local instance (high)] instPowNat

/-! ## How a cell shows its value -/

/-- A float in a cell: from a hundred-thousandth up to below ten to the sixteenth without exponent. -/
def cellFloat : FloatLayout := ⟨(-5, 15), 1, "", "NaN", "inf"⟩

/-- Digits with the last `places` of them after a point. -/
def pointed (places : Nat) (digits : List Char) : List Char :=
  if places = 0 then digits
  else if places < digits.length then
    digits.take (digits.length - places) ++ '.' :: digits.drop (digits.length - places)
  else '0' :: '.' :: (List.replicate (places - digits.length) '0' ++ digits)

/-- A decimal with a fixed count of digits after the point; zero has no sign. -/
def decimalShown (places : Int) (negative : Bool) (coefficient : Nat) (exponent : Int) : List Char :=
  let n := coefficient * 10 ^ (exponent + places).toNat
  (if negative ∧ n ≠ 0 then ['-'] else []) ++ pointed places.toNat (Nat.toDigits 10 n)

/-- A fraction of a second with as few groups of three digits as it needs. -/
def fractionShown (micros : Nat) : List Char :=
  if micros = 0 then []
  else if micros % 1000 = 0 then '.' :: padDigits 3 (micros / 1000)
  else '.' :: padDigits 6 micros

def clockShown (t : TimeOfDay) : List Char :=
  padDigits 2 t.hour ++ ':' :: (padDigits 2 t.minute ++ ':' :: padDigits 2 t.second) ++
    fractionShown t.microsecond

/-- An offset in minutes, the letter Z for none. -/
def zoneShown : Option Int → List Char
  | none => []
  | some minutes =>
    if minutes = 0 then ['Z']
    else (if minutes < 0 then '-' else '+') ::
      (padDigits 2 (minutes.natAbs / 60) ++ ':' :: padDigits 2 (minutes.natAbs % 60))

/-- Microseconds from the start of year 1 in UTC, the offset being cut to the second below. -/
def cellInstant (t : Timestamp) : Int :=
  t.wallMicros - (match t.offset with | some o => o.micros / 1000000 * 1000000 | none => 0)

/-- A point in time as the clocks of a zone show it. -/
def timeShown (zone : Option Int) (t : Timestamp) : Except Fault (List Char) :=
  match Timestamp.ofWallMicros? (cellInstant t + zone.getD 0 * 60000000) none with
  | some u => .ok (u.date.isoText ++ 'T' :: clockShown u.time ++ zoneShown zone)
  | none => .error misfit

/-- The least integer that a cell does not hold. -/
def wholeBound : Int := 9223372036854775808

def wholeShown (n : Int) : Except Fault (List Char) :=
  if -wholeBound ≤ n ∧ n < wholeBound then .ok (intDigits n) else .error .outOfRange

/-- An integer among floats must be one of those that floats count through one by one. -/
def realShown (n : Int) : Except Fault (List Char) := do
  let _ ← wholeShown n
  if n.natAbs ≤ 2 ^ (53 : Nat) then return cellFloat.text (.ofInt n) else .error misfit

/-- An integer among decimals of a size. -/
def wholeDecimalShown (digits places n : Int) : Except Fault (List Char) :=
  if digits < (Nat.toDigits 10 n.natAbs).length + places then .error misfit
  else .ok (decimalShown places (n < 0) n.natAbs 0)

/-- A value that is no list in a cell of a type. -/
def leafShown : CellType → Value → Except Fault (List Char)
  | .flag, .bool b => .ok (if b then "true".toList else "false".toList)
  | .whole, .int n => wholeShown n
  | .real, .float x => .ok (cellFloat.text x)
  | .real, .int n => realShown n
  | .decimal (some (_, places)), .decimal (.finite negative coefficient exponent) =>
    .ok (decimalShown places negative coefficient exponent)
  | .decimal _, .decimal _ => .error misfit
  | .decimal (some (digits, places)), .int n => wholeDecimalShown digits places n
  | .decimal _, .bool _ => .error misfit
  | .decimal _, _ => .error mistyped
  | .text, .str s => .ok s.toList
  | .text, .bytes bs => (Digest.ofUtf8? bs).elim (.error misfit) .ok
  | .text, _ => .error mistyped
  | .bytes, .bytes bs => .ok (Digest.hex bs)
  | .bytes, .str s => .ok (Digest.hex (Digest.utf8 s.toList))
  | .bytes, _ => .error mistyped
  | .date, .date d => .ok d.isoText
  | .date, .datetime t => .ok t.date.isoText
  | .date, _ => .error .wrongType
  | .time zone, .datetime t => timeShown zone t
  | .time _, _ => .error .wrongType
  | _, _ => .error misfit

mutual
/-- The text of a value in a cell of a type; nothing shows as nothing. -/
def shownIn : CellType → Value → Except Fault (List Char)
  | _, .null => .ok []
  | .list t, .list items => do return Value.bracketed "[" "]" (← itemsShown t items)
  | .list t, .tuple items => do return Value.bracketed "[" "]" (← itemsShown t items)
  | .list t, .set items => do return Value.bracketed "[" "]" (← itemsShown t items)
  | .record, .map fields => fieldsShown fields
  | t, v => leafShown t v

def itemsShown : CellType → List Value → Except Fault (List (List Char))
  | _, [] => .ok []
  | t, v :: rest => do
    let text ← shownIn t v
    let texts ← itemsShown t rest
    return text :: texts

/-- A record shows nothing, but every value in it must fit a cell. -/
def fieldsShown : List (Value × Value) → Except Fault (List Char)
  | [] => .ok []
  | (_, v) :: rest => do
    let t ← cellType v
    if t.isSound then
      let _ ← shownIn t v
      fieldsShown rest
    else .error misfit
end

/-! ## Cells and columns -/

/-- A value in a cell of its own type. -/
structure Cell where
  type : CellType
  value : Value
  shown : List Char

namespace CellType

/-- Whether cells of a type can be cast to texts at all. -/
def castsToText : CellType → Bool
  | .record => false
  | .list items => castsToText items
  | _ => true

/-- Whether cells of a type can be cast to flags at all. -/
def castsToFlag : CellType → Bool
  | .nothing | .flag | .whole | .real | .text => true
  | _ => false

end CellType

namespace Cell

def of (v : Value) : Except Fault Cell := do
  let t ← cellType v
  if t.isSound then return ⟨t, v, ← shownIn t v⟩ else .error misfit

/-- The cell in a column of texts. Bytes must be a text in UTF-8. -/
def toText (c : Cell) : Except Fault (Option String) :=
  match c.value with
  | .null => .ok none
  | .bytes bs =>
    match Digest.ofUtf8? bs with
    | some s => .ok (some (String.ofList s))
    | none => .error (.external "RuntimeError")
  | _ => .ok (some (String.ofList c.shown))

theorem of_str (s : String) : Cell.of (.str s) = .ok ⟨.text, .str s, s.toList⟩ := by
  simp only [Cell.of, cellType, shownIn, leafShown]
  rfl

theorem toText_str (s : String) : toText ⟨.text, .str s, s.toList⟩ = .ok (some s) := by
  simp [toText]

/-- Blanks of a flag's word: the four information separators are none. -/
def isFlagBlank (c : Char) : Bool := isBlank c && !(28 ≤ c.toNat && c.toNat ≤ 31)

/-- The flag that a word stands for, in ASCII letters of any case and with blanks around it. -/
def flagOfText? (s : List Char) : Option Bool :=
  let word := ((s.map Char.toLower).dropWhile isFlagBlank).reverse.dropWhile isFlagBlank |>.reverse
  let among (words : List String) : Bool := words.any fun w => w.toList == word
  if among ["t", "tr", "tru", "true", "y", "ye", "yes", "on", "1"] then some true
  else if among ["f", "fa", "fal", "fals", "false", "n", "no", "of", "off", "0"] then some false
  else none

/-- The cell in a column of flags. -/
def toFlag (c : Cell) : Except Fault (Option Bool) :=
  match c.value with
  | .bool b => .ok (some b)
  | .int n => .ok (some (n != 0))
  | .float x => .ok (some (!x.isZero))
  | .str s =>
    match flagOfText? s.toList with
    | some b => .ok (some b)
    | none => .error (.external "RuntimeError")
  | _ => .ok none

end Cell

end ConsentGate.Ledger
