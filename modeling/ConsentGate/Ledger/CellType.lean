import ConsentGate.Failure
import ConsentGate.Value.Basic

/-! Types of cells.

A cell of the ledger first has the type that its value has by itself; the type of its column comes
later. Several values under one another, as in a list, share the type that suits them all: numbers go
before dates, dates before flags, flags before texts, and lists keep to themselves. The first value of
most kinds decides, and those after it are not looked at. -/
namespace ConsentGate.Ledger
open Number
set_option autoImplicit false

inductive CellType where
  | nothing
  | flag
  | whole
  | real
  /-- Counts of digits, in all and after the point; none where no number was seen. -/
  | decimal (size : Option (Int × Int))
  | text
  | bytes
  | date
  /-- Points in time, shown that many minutes east of UTC, or without offset. -/
  | time (zone : Option Int)
  | list (items : CellType)
  | record
  deriving DecidableEq, Repr

/-- A value does not fit a cell. -/
def misfit : Fault := .external "ArrowInvalid"

/-- A value of a wrong type stands where a text, bytes or a decimal should. -/
def mistyped : Fault := .external "ArrowTypeError"

namespace CellType

/-- Which of two types a common cell has, the greater one. -/
def rank : CellType → Nat
  | .nothing => 0
  | .text => 1
  | .bytes => 2
  | .flag => 3
  | .time _ => 4
  | .date => 5
  | .whole => 6
  | .real => 7
  | .decimal _ => 8
  | .list _ => 9
  | .record => 9

/-- Counts of digits that suffice for two decimals. -/
def joinSize : Option (Int × Int) → Option (Int × Int) → Option (Int × Int)
  | none, size => size
  | size, none => size
  | some (p, s), some (q, t) => some (max (p - s) (q - t) + max s t, max s t)

/-- The type that suits cells of two types. -/
def join : CellType → CellType → Except Fault CellType
  | .nothing, t => .ok t
  | t, .nothing => .ok t
  | .list t, .list u => (join t u).map .list
  | .record, .record => .ok .record
  | .decimal size, .decimal other => .ok (.decimal (joinSize size other))
  | t, u =>
    if t.rank = 9 ∨ u.rank = 9 then .error misfit
    else .ok (if u.rank ≤ t.rank then t else u)

/-- Decimals have between one and seventy-six digits. -/
def isSound : CellType → Bool
  | .decimal none => false
  | .decimal (some (digits, _)) => decide (1 ≤ digits ∧ digits ≤ 76)
  | .list items => items.isSound
  | _ => true

/-- The type of decimals with as many digits as a number needs. -/
def ofDecimal : Decimal → CellType
  | .finite _ coefficient exponent =>
    let digits : Int := (Nat.toDigits 10 coefficient).length
    .decimal (some
      (if exponent < 0 then (max digits (-exponent), -exponent) else (digits + exponent, 0)))
  | _ => .decimal none

/-- The type of points in time at an offset, which must be a whole number of minutes; what is below a
second does not count. -/
def ofOffset : Option Calendar.Offset → Except Fault CellType
  | none => .ok (.time none)
  | some o =>
    let seconds := o.micros / 1000000
    if seconds % 60 = 0 then .ok (.time (some (seconds / 60))) else .error misfit

end CellType

/-- Whether the type of a list is settled once the value has been seen. -/
def settles : Value → Bool
  | .bool _ | .float _ | .str _ | .bytes _ | .date _ | .datetime _ => true
  | _ => false

mutual
/-- The type that a value has by itself. -/
def cellType : Value → Except Fault CellType
  | .null => .ok .nothing
  | .bool _ => .ok .flag
  | .int _ => .ok .whole
  | .float _ => .ok .real
  | .decimal d => .ok (CellType.ofDecimal d)
  | .str _ => .ok .text
  | .date _ => .ok .date
  | .datetime t => CellType.ofOffset t.offset
  | .bytes _ => .ok .bytes
  | .list items => do return .list (← itemsType items)
  | .tuple items => do return .list (← itemsType items)
  | .set items => do return .list (← itemsType items)
  | .map fields => fieldsType fields
  | _ => .error misfit

/-- The type that suits all items up to the one that settles it. -/
def itemsType : List Value → Except Fault CellType
  | [] => .ok .nothing
  | v :: rest => do
    let t ← cellType v
    if settles v then return t
    else t.join (← itemsType rest)

/-- Records have texts or bytes for keys. -/
def fieldsType : List (Value × Value) → Except Fault CellType
  | [] => .ok .record
  | (k, v) :: rest => do
    match k with
    | .str _ | .bytes _ => let _ ← cellType v; fieldsType rest
    | _ => .error mistyped
end

end ConsentGate.Ledger
