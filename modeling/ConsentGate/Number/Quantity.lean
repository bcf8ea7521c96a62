import ConsentGate.Failure
import ConsentGate.Number.DecimalSum
import ConsentGate.Number.Scaled

/-! Numbers of any kind, compared and added.

Comparison is exact whatever the kinds are. A sum of whole numbers is whole, a sum with a decimal is a
decimal, and a sum with a floating-point number is one; decimals and floating-point numbers do not
add. A decimal cannot be put in order with what is no number, while among the other kinds such a
comparison merely does not hold. -/
namespace ConsentGate.Number
set_option autoImplicit false

inductive Quantity where
  | whole (n : Int)
  | float (x : Binary64)
  | decimal (d : Decimal)
  deriving DecidableEq, Repr

namespace Quantity

/-! ## Comparison -/

/-- The number in its exact form, if it is finite. -/
def scaled? : Quantity → Option Scaled
  | .whole n => some ⟨n, 1, 0⟩
  | .float x => x.scaled?
  | .decimal d => d.scaled?

def isNan : Quantity → Bool
  | .float .nan => true
  | .decimal (.nan ..) => true
  | _ => false

def isDecimal : Quantity → Bool
  | .decimal _ => true
  | _ => false

/-- Whether the number is infinite with the given sign. -/
def isInfinite (negative : Bool) : Quantity → Bool
  | .float (.infinite a) => a == negative
  | .decimal (.infinite a) => a == negative
  | _ => false

/-- Less than; never so for what is no number. -/
def lt (x y : Quantity) : Bool :=
  match x, y with
  | .whole m, .whole n => decide (m < n)
  | x, y =>
    match x.scaled?, y.scaled? with
    | some a, some b => a.lt b
    | _, _ =>
      !x.isNan && !y.isNan &&
        ((x.isInfinite true && !y.isInfinite true) || (y.isInfinite false && !x.isInfinite false))

/-- At most; never so for what is no number. -/
def le (x y : Quantity) : Bool := !x.isNan && !y.isNan && !y.lt x

/-- Equal in value; never so for what is no number. -/
def same (x y : Quantity) : Bool := x.le y && y.le x

/-- Why two numbers cannot be put in order. -/
def orderFault? (x y : Quantity) : Option Fault :=
  if (x.isDecimal || y.isDecimal) && (x.isNan || y.isNan) then some (.external "InvalidOperation")
  else none

def lt? (x y : Quantity) : Except Fault Bool :=
  match x.orderFault? y with
  | some f => .error f
  | none => .ok (x.lt y)

def le? (x y : Quantity) : Except Fault Bool :=
  match x.orderFault? y with
  | some f => .error f
  | none => .ok (x.le y)

theorem le?_whole (m n : Int) : le? (.whole m) (.whole n) = .ok (decide (m ≤ n)) := by
  have e : (!decide (n < m)) = decide (m ≤ n) := by
    rw [← decide_not, decide_eq_decide]
    exact Int.not_lt
  exact congrArg Except.ok e

/-! ## Sums -/

/-- The nearest floating-point number; a whole number may lie beyond all of them. -/
def toFloat? : Quantity → Except Fault Binary64
  | .whole n =>
    match Binary64.ofInt n with
    | .infinite _ => .error .outOfRange
    | x => .ok x
  | .float x => .ok x
  | .decimal _ => .error .wrongType

def sumFault : Decimal.Trouble → Fault
  | .invalid => .external "InvalidOperation"
  | .overflow => .external "Overflow"

def addDecimal (d e : Decimal) : Except Fault Quantity := ((d.add e).map .decimal).mapError sumFault

def add : Quantity → Quantity → Except Fault Quantity
  | .whole m, .whole n => .ok (.whole (m + n))
  | .decimal d, .decimal e => addDecimal d e
  | .decimal d, .whole n => addDecimal d (.ofInt n)
  | .whole m, .decimal e => addDecimal (.ofInt m) e
  | .decimal _, .float _ => .error .wrongType
  | .float _, .decimal _ => .error .wrongType
  | x, y => do return .float ((← x.toFloat?).add (← y.toFloat?))

theorem add_whole (m n : Int) : add (.whole m) (.whole n) = .ok (.whole (m + n)) := rfl

end Quantity

end ConsentGate.Number
