import ConsentGate.Number.Binary64
import ConsentGate.Number.Decimal

/-! Sums of decimals.

A sum is the exact one rounded to 28 digits, a half to the even digit. Its digits end at the place of
exponent `leastExponent`, and above `greatestExponent` there is no sum. -/
namespace ConsentGate.Number
set_option autoImplicit false
-- Powers are those of the core library, also where Mathlib knows others.
attribute [local instance (high)] instPowNat

namespace Decimal

/-- Why there is no sum: infinities of opposite signs and signaling values are invalid operands. -/
inductive Trouble where
  | invalid
  | overflow
  deriving DecidableEq, Repr

def precision : Nat := 28

/-- The greatest power of ten that the first digit of a sum may stand for. -/
def greatestExponent : Int := 999999

/-- The least power of ten that the last digit of a sum may stand for. -/
def leastExponent : Int := -1000026

def ofInt (n : Int) : Decimal := .finite (n < 0) n.natAbs 0

def digitCount (n : Nat) : Nat := (Nat.toDigits 10 n).length

/-- A number rounded to the precision. What lies below half of the last place is zero, and its
powers are not computed. -/
def rounded (negative : Bool) (coefficient : Nat) (exponent : Int) : Except Trouble Decimal :=
  let excess := max ((digitCount coefficient : Int) - precision) (leastExponent - exponent)
  let (c, e) :=
    if excess ≤ 0 then (coefficient, exponent)
    else if digitCount coefficient < excess then (0, exponent + excess)
    else (roundDiv coefficient (10 ^ excess.toNat), exponent + excess)
  if c ≠ 0 ∧ greatestExponent < digitCount c + e - 1 then .error .overflow
  else .ok (.finite negative c e)

/-- A number as an integer of its last place. -/
def places (negative : Bool) (coefficient : Nat) : Int :=
  if negative then -(coefficient : Int) else coefficient

/-- The sum of two numbers that are not zero, the first of which has the greater exponent. A second
one too small to reach the rounded digits tells by its sign alone, so a small number of that sign
stands for it. -/
def addAligned (x y : Bool × Nat × Int) : Except Trouble Decimal :=
  let (a, c, e) := x
  let (b, d, f) := y
  let floor := e + min (-1) ((digitCount c : Int) - precision - 2)
  let (d, f) := if (digitCount d : Int) + f - 1 < floor then (1, floor) else (d, f)
  let n := places a c * 10 ^ (e - f).toNat + places b d
  rounded (decide (n < 0)) n.natAbs f

def add : Decimal → Decimal → Except Trouble Decimal
  | .nan _ true _, _ => .error .invalid
  | _, .nan _ true _ => .error .invalid
  | .nan a false payload, _ => .ok (.nan a false payload)
  | _, .nan b false payload => .ok (.nan b false payload)
  | .infinite a, .infinite b => if a = b then .ok (.infinite a) else .error .invalid
  | .infinite a, .finite .. => .ok (.infinite a)
  | .finite .., .infinite b => .ok (.infinite b)
  | .finite a c e, .finite b d f =>
    if c = 0 then rounded b d f
    else if d = 0 then rounded a c e
    else if f ≤ e then addAligned (a, c, e) (b, d, f)
    else addAligned (b, d, f) (a, c, e)

end Decimal

end ConsentGate.Number
